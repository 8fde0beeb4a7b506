import ScriptAtlas.Text.Blank
import ScriptAtlas.Text.Pattern

/-!
The words of procedural SQL that classification looks for: the table of weighted rules, the control
keywords, and the patterns that pick out names.
-/

namespace ScriptAtlas

open Pattern

inductive Category where
  | operation
  | transaction
  | call
  | function
  | cursor
  | dynamic
  | systemVariable
  | errorRaise
  deriving DecidableEq, Repr

namespace Category

def all : List Category :=
  [operation, transaction, call, function, cursor, dynamic, systemVariable, errorRaise]

def name : Category → Text
  | operation => "operation"
  | transaction => "transaction"
  | call => "call"
  | function => "function"
  | cursor => "cursor"
  | dynamic => "dynamic"
  | systemVariable => "system_variable"
  | errorRaise => "error_raise"

def nameAt (position : Int) : Text :=
  match position with
  | .ofNat n => (all[n]?.map name).getD "unknown"
  | .negSucc _ => "unknown"

end Category

inductive Emission where
  | fixed (tag : Text)
  /-- What the marked part of each accepted occurrence read, after a label. The weight counts once,
  or once for each tag. -/
  | marked (label : Text) (weighEach : Bool) (accepts : Hit → Bool)

/-- An entry of the classification table. Patterns run against upper-cased code. -/
structure Rule where
  pattern : Pattern
  category : Category
  weight : Nat
  emission : Emission

namespace Rule

def tags (r : Rule) (code : Text) : List Text :=
  match r.emission with
  | .fixed tag => if r.pattern.occurs code then [tag] else []
  | .marked label _ accepts =>
    (((r.pattern.all code).filter accepts).filterMap fun hit =>
      hit.marked.head?.map (label ++ ·)).eraseDups

def weightOf (r : Rule) (count : Nat) : Nat :=
  if count == 0 then 0
  else
    match r.emission with
    | .marked _ true _ => r.weight * count
    | _ => r.weight

def keyword (word : String) (category : Category) (weight : Nat) : Rule where
  pattern := whole word
  category := category
  weight := weight
  emission := .fixed word

def family (label : String) (names : List String) : Rule where
  pattern := .edge ++ (mark (oneOf names) ++ (anyGap ++ lit "("))
  category := .function
  weight := 1
  emission := .marked (label ++ ":") true fun _ => true

def tagged (pattern : Pattern) (category : Category) (weight : Nat) (tag : String) : Rule where
  pattern := pattern
  category := category
  weight := weight
  emission := .fixed tag

end Rule

namespace Vocabulary

/-- Words that, directly before `name(`, mean that the name is defined or targeted, not called. -/
def nonCallLeads : List Text :=
  Text.ofStrings ["INTO", "TABLE", "FROM", "JOIN", "UPDATE", "EXEC", "EXECUTE", "PROCEDURE", "PROC", "FUNCTION",
    "ON", "REFERENCES", "VIEW", "INDEX"]

def isCall (hit : Hit) : Bool :=
  match (Text.fields hit.behind.reverse).getLast? with
  | some word => !nonCallLeads.elem word
  | none => true

def isNameStart (b : UInt8) : Bool :=
  (0x41 ≤ b && b ≤ 0x5A) || b == 0x5F

def execute : Pattern := lit "EXEC" ++ maybe (lit "UTE")

def transaction : Pattern := lit "TRAN" ++ maybe (lit "SACTION")

/-- `BEGIN TRANSACTION`, perhaps distributed, up to its last word edge. -/
def beginTransaction : Pattern :=
  lit "BEGIN" ++ (gap ++ (maybe (lit "DISTRIBUTED" ++ gap) ++ (transaction ++ edge)))

def procedureCall : Pattern :=
  edge ++ (execute ++ (gap ++ (maybe (lit "@" ++ (some1 wordByte ++ (anyGap ++ (lit "=" ++ anyGap)))) ++
    mark (one (fun b => isNameStart b || b == 0x5B) ++
      many (one fun b => isWordByte b || b == 0x2E || b == 0x5B || b == 0x5D)))))

def functionCall : Pattern :=
  edge ++ (mark (one isNameStart ++ (many wordByte ++ (lit "." ++ (one isNameStart ++ many wordByte))))
    ++ (anyGap ++ lit "("))

def rules : List Rule := [
  .keyword "SELECT" .operation 1,
  .keyword "INSERT" .operation 1,
  .keyword "UPDATE" .operation 1,
  .keyword "DELETE" .operation 1,
  .keyword "MERGE" .operation 1,
  .keyword "CREATE" .operation 1,
  .keyword "ALTER" .operation 1,
  .keyword "DROP" .operation 1,
  .keyword "TRUNCATE" .operation 1,
  .tagged (whole execute) .operation 1 "EXEC",
  .tagged (edge ++ beginTransaction) .transaction 1 "BEGIN TRANSACTION",
  .tagged (edge ++ (lit "SAVE" ++ (gap ++ (transaction ++ edge)))) .transaction 1 "SAVE TRANSACTION",
  .keyword "COMMIT" .transaction 1,
  .keyword "ROLLBACK" .transaction 1,
  { pattern := procedureCall, category := .call, weight := 2,
    emission := .marked "SP_CALL:" true fun _ => true },
  { pattern := functionCall, category := .call, weight := 2,
    emission := .marked "UDF_CALL:" true isCall },
  .family "SYSTEM" ["GETDATE", "GETUTCDATE", "SYSDATETIME", "NEWID", "SCOPE_IDENTITY", "OBJECT_ID",
    "DB_NAME", "SUSER_SNAME", "ERROR_MESSAGE", "ERROR_NUMBER", "ERROR_LINE", "ERROR_SEVERITY",
    "ERROR_STATE", "ERROR_PROCEDURE", "XACT_STATE", "HOST_NAME", "APP_NAME"],
  .family "AGGREGATE" ["SUM", "COUNT", "COUNT_BIG", "AVG", "MIN", "MAX", "STRING_AGG", "STDEV",
    "VAR"],
  .family "STRING" ["LEN", "SUBSTRING", "LEFT", "RIGHT", "LTRIM", "RTRIM", "TRIM", "UPPER", "LOWER",
    "REPLACE", "CHARINDEX", "PATINDEX", "CONCAT", "STUFF", "REPLICATE", "FORMAT"],
  .family "DATE" ["DATEADD", "DATEDIFF", "DATEPART", "DATENAME", "YEAR", "MONTH", "DAY", "EOMONTH"],
  .family "MATH" ["ROUND", "ABS", "CEILING", "FLOOR", "POWER", "SQRT"],
  .family "CONVERSION" ["CAST", "CONVERT", "TRY_CAST", "TRY_CONVERT", "PARSE", "TRY_PARSE"],
  .family "WINDOW" ["ROW_NUMBER", "RANK", "DENSE_RANK", "NTILE", "LAG", "LEAD", "FIRST_VALUE",
    "LAST_VALUE"],
  .family "LOGICAL" ["ISNULL", "COALESCE", "NULLIF", "IIF", "CHOOSE"],
  .tagged (whole (lit "CURSOR") ++ (anything ++ whole (lit "FOR"))) .cursor 3 "CURSOR",
  .keyword "FETCH" .cursor 1,
  .keyword "DEALLOCATE" .cursor 1,
  .tagged ((edge ++ (execute ++ (anyGap ++ lit "("))) |||
    (edge ++ (execute ++ (gap ++ (lit "@" ++ (some1 wordByte ++ (anyGap ++ (lit ";" ||| stop)))))))) .dynamic 3
    "DYNAMIC_EXEC",
  .tagged (whole (lit "SP_EXECUTESQL")) .dynamic 0 "DYNAMIC_EXEC",
  { pattern := mark (lit "@@" ++ some1 wordByte), category := .systemVariable, weight := 1,
    emission := .marked [] false fun _ => true },
  { pattern := edge ++ (mark (oneOf ["RAISERROR", "THROW"]) ++ edge), category := .errorRaise,
    weight := 2, emission := .marked [] false fun _ => true }]

/-! ### Control flow -/

def controlWord : Pattern :=
  whole (oneOf ["IF", "ELSE", "WHILE", "BEGIN", "END", "TRY", "CATCH", "CASE", "WHEN", "THEN",
    "RETURN", "BREAK", "CONTINUE", "GOTO", "WAITFOR"])

/-- The weight of a control keyword: two if it opens nesting. -/
def controlWeight (word : Text) : Nat :=
  if ([ "BEGIN", "IF", "WHILE", "TRY", "CASE"] : List Text).elem word then 2 else 0

def beginWord : Pattern := whole (lit "BEGIN")

def caseWord : Pattern := whole (lit "CASE")

def endWord : Pattern := whole (lit "END")

/-! ### Names, read from code that keeps its case -/

def variableName : Pattern := lit "@" ++ some1 wordChar

def declaredVariable : Pattern :=
  edge ++ (anyCase "DECLARE" ++ (gap ++ mark variableName))

def listedVariable : Pattern :=
  (start ||| lit ",") ++ (anyGap ++ (mark variableName ++ (gap ++ mark (some1 wordChar))))

def declaredCursor : Pattern :=
  edge ++ (anyCase "DECLARE" ++ (gap ++ (mark (some1 wordChar) ++ (gap ++
    (few (some1 wordChar ++ gap) ++ (anyCase "CURSOR" ++ edge))))))

def routineParameter : Pattern :=
  edge ++ (oneOfAnyCase ["PROC", "PROCEDURE", "FUNCTION"] ++ (gap ++ (some1 (wordCharOr ".[]") ++
    (anyGap ++ (maybe (lit "(") ++ (anyGap ++ (mark variableName ++ (gap ++ mark (some1 wordChar)))))))))

def usedVariable : Pattern :=
  lit "@" ++ (maybe (lit "@") ++ some1 wordByte)

def tableReference : Pattern :=
  edge ++ (oneOfAnyCase ["FROM", "JOIN", "UPDATE", "INTO"] ++ (gap ++ mark (some1 (wordCharOr "#[]."))))

def deletedTable : Pattern :=
  edge ++ (anyCase "DELETE" ++ (gap ++ mark (some1 (wordCharOr "#[]."))))

def executeAnyCase : Pattern :=
  edge ++ (anyCase "EXEC" ++ (maybe (anyCase "UTE") ++ edge))

/-- Words after a variable that show it being used, not declared with a type. -/
def notTypes : List Text :=
  Text.ofStrings ["IS", "IN", "AND", "OR", "NOT", "LIKE", "BETWEEN", "THEN", "ELSE", "END", "WHEN", "OUTPUT", "OUT",
    "FROM", "WHERE", "AS"]

/-- Words that stand where a table name may stand and never name a table. -/
def notTables : List Text :=
  Text.ofStrings ["SELECT", "SET", "WHERE", "VALUES", "TOP", "DISTINCT", "CASCADE", "OF", "STATISTICS", "FROM"]

/-! ### Section markers -/

def sectionChars : List Char := ['=', '_', '-', '*', '#', '~']

def sectionRun : Pattern :=
  choice (["=", "_", "-", "*", "#", "~"].map fun s => threeOrMore (lit s))

/-! ### Business functions -/

def businessFunctions : List (Text × Pattern) := [
  ("CUSTOMER_VALIDATION", (lit "CUSTOMER" ++ (anything ++ lit "VALID")) |||
    ((lit "@CUSTOMER" ++ (anything ++ lit "CHECK")) ||| (lit "CUSTOMER" ++ (anything ++ lit "EXIST")))),
  ("INVENTORY_MANAGEMENT", choice [lit "INVENTORY", edge ++ lit "STOCK", lit "WAREHOUSE",
    lit "ALLOCATION"]),
  ("PAYMENT_PROCESSING", choice [lit "PAYMENT", lit "AUTHORI" ++ (byteIn "SZ" ++ lit "E"),
    edge ++ lit "CHARGE"]),
  ("TAX_CALCULATION", choice [edge ++ lit "TAX", lit "RATE" ++ (anything ++ lit "CALCULAT")]),
  ("SHIPPING_LOGISTICS", oneOf ["SHIPPING", "SHIPMENT", "DELIVERY", "FREIGHT", "CARRIER"]),
  ("LOYALTY_REWARDS", choice [lit "LOYALTY", whole (lit "POINTS"), lit "REWARD", edge ++ lit "TIER"]),
  ("PROMOTION_DISCOUNT", choice [lit "PROMO", lit "DISCOUNT", lit "COUPON", edge ++ lit "OFFER"]),
  ("AUDIT_LOGGING", choice [lit "AUDIT", whole (lit "LOG" ++ maybe (lit "S")), lit "_LOG" ++ edge,
    edge ++ lit "TRACK", lit "HISTORY"]),
  ("NOTIFICATION", choice [lit "NOTIFICATION", edge ++ lit "ALERT", edge ++ lit "EMAIL",
    whole (lit "MESSAGE")]),
  ("REPORTING", choice [lit "REPORT", edge ++ lit "SUMMARY", lit "ANALYTICS", lit "STATISTICS"])]

end Vocabulary

end ScriptAtlas
