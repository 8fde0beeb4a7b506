import ScriptAtlas.Line.Classify

/-!
The words of a line of code that decide how it continues: its leading keyword, the body that an `IF`
or `WHILE` condition governs, and endings that leave a line unfinished.
-/

namespace ScriptAtlas

open Pattern

namespace Word

def isNameByte (b : UInt8) : Bool :=
  isWordByte b || b == 0x40 || b == 0x23

/-- The leading word of code, or its first byte when it starts with no word. -/
def leading (code : Text) : Text :=
  match code with
  | [] => []
  | b :: _ => if isNameByte b then code.takeWhile isNameByte else [b]

/-- Code without its leading word and the blanks around the rest. -/
def afterLeading (code : Text) : Text :=
  Text.trim (code.drop (leading code).length)

def statementStarters : List Text :=
  Text.ofStrings ["SELECT", "INSERT", "UPDATE", "DELETE", "MERGE", "SET", "DECLARE", "EXEC", "EXECUTE", "PRINT",
    "RAISERROR", "THROW", "RETURN", "COMMIT", "ROLLBACK", "SAVE", "FETCH", "OPEN", "CLOSE",
    "DEALLOCATE", "TRUNCATE", "CREATE", "ALTER", "DROP", "WITH", "GO", "BREAK", "CONTINUE", "GOTO",
    "WAITFOR", "USE", "GRANT", "REVOKE", "BULK"]

def bodyStarters : List Text :=
  Text.ofStrings ["BEGIN", "IF", "WHILE", "SELECT", "INSERT", "UPDATE", "DELETE", "MERGE", "SET", "DECLARE", "EXEC",
    "EXECUTE", "PRINT", "RAISERROR", "THROW", "RETURN", "COMMIT", "ROLLBACK", "SAVE", "FETCH", "OPEN",
    "CLOSE", "DEALLOCATE", "TRUNCATE", "BREAK", "CONTINUE", "GOTO", "WAITFOR", "WITH"]

def leadsWith (code : Text) (words : List Text) : Bool :=
  words.elem (leading code)

def beginsTransaction (code : Text) : Bool :=
  Vocabulary.beginTransaction.leads code

def beginsTry (code : Text) : Bool :=
  (lit "BEGIN" ++ (gap ++ (lit "TRY" ++ edge))).leads code

def beginsCatch (code : Text) : Bool :=
  (lit "BEGIN" ++ (gap ++ (lit "CATCH" ++ edge))).leads code

/-- A plain `BEGIN` of a `BEGIN … END` block. -/
def beginsBlock (code : Text) : Bool :=
  leading code == "BEGIN" && !beginsTransaction code && !beginsTry code && !beginsCatch code

def setsVariable (code : Text) : Bool :=
  (lit "SET" ++ (gap ++ (lit "@" ++ wordByte))).leads code

def danglingWords : List String :=
  ["AND", "OR", "NOT", "UNION", "ALL", "ON", "WHERE", "SET", "SELECT", "FROM", "JOIN", "THEN", "ELSE",
    "IN", "BY", "VALUES", "INTO", "WHEN", "EXCEPT", "INTERSECT", "LIKE", "BETWEEN"]

def dangling : Pattern :=
  (byteIn ",+-*/=(<>" ||| (edge ++ oneOf danglingWords)) ++ stop

/-- Whether code ends in an operator or a word that calls for more. -/
def isDangling (code : Text) : Bool :=
  dangling.occurs code

/-- `END ELSE` and what follows it. -/
def endElse : Pattern :=
  edge ++ (lit "END" ++ (gap ++ (lit "ELSE" ++ (edge ++ (anyGap ++ (mark anything ++ stop))))))

def afterEndElse (code : Text) : Option Text :=
  (endElse.find? code).bind fun hit => hit.marked.head?

def openParen : UInt8 := 0x28

def closeParen : UInt8 := 0x29

def isTokenByte (b : UInt8) : Bool :=
  !isGapByte b && b != openParen && b != closeParen

inductive Condition where
  | body (rest : Text) (depth : Int)
  /-- No body up to the end, where the parentheses are this deep. -/
  | ongoing (depth : Int)
  deriving DecidableEq, Repr

/-- Scans a condition for its body at parenthesis depth zero, or below. `inToken` tells that the scan
stands inside a token that was looked at already. -/
def scanCondition (inToken : Bool) (depth : Int) : Text → Condition
  | [] => .ongoing depth
  | b :: rest =>
    if b == openParen then scanCondition false (depth + 1) rest
    else if b == closeParen then scanCondition false (depth - 1) rest
    else if isGapByte b then scanCondition false depth rest
    else if inToken || depth > 0 then scanCondition true depth rest
    else
      let token := (b :: rest).takeWhile isTokenByte
      let isFunction := token == "UPDATE" && ((b :: rest).drop token.length).head? == some openParen
      if leadsWith token bodyStarters && !isFunction then .body (Text.trim (b :: rest)) depth
      else scanCondition true depth rest

/-- Scans a condition for the body that it governs. `depth` is the balance of the lines before. -/
def splitCondition (text : Text) (depth : Int) : Condition :=
  scanCondition false depth text

def reachesBody (text : Text) : Bool :=
  match splitCondition text 0 with
  | .body _ _ => true
  | .ongoing _ => false

def isRoutineHeader (code : Text) : Bool :=
  (oneOf ["CREATE", "ALTER"] ++ (gap ++ (maybe (lit "OR" ++ (gap ++ (lit "ALTER" ++ gap))) ++
    (oneOf ["PROC", "PROCEDURE", "FUNCTION", "TRIGGER", "VIEW"] ++ edge)))).leads code

/-- Whether code is a header of a branch or loop, or part of one, that has not reached its body. -/
def isPendingHeader (code : Text) : Bool :=
  isDangling code ||
  (match afterEndElse code with
    | some rest => rest.trim.isEmpty
    | none => false) ||
  (if leadsWith code ["IF", "WHILE"] then !reachesBody (afterLeading code)
    else if leadsWith code ["AND", "OR", "NOT"] then !reachesBody code
    else if leadsWith code ["ELSE"] then
      (afterLeading code).isEmpty ||
        (leadsWith (afterLeading code) ["IF"] && !reachesBody (afterLeading (afterLeading code)))
    else false)

end Word

namespace Line

def startsStatement (l : Line) : Bool :=
  l.isCode && (Word.leadsWith l.code Word.statementStarters || Word.beginsTransaction l.code)

def startsControl (l : Line) : Bool :=
  l.isCode && (Word.leadsWith l.code ["IF", "WHILE"] || Word.beginsTry l.code)

end Line

end ScriptAtlas
