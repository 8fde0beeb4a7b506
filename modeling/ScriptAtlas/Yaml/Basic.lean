import ScriptAtlas.Number.Dyadic
import ScriptAtlas.Text.Blank

/-!
YAML values of settings files, and what plain words stand for. A decimal number keeps its digits: it is
`digits * 10 ^ exponent`, with the sign beside it.
-/

namespace ScriptAtlas

inductive Yaml where
  | null
  | bool (b : Bool)
  | int (n : Int)
  | decimal (negative : Bool) (digits : Nat) (exponent : Int)
  /-- An infinity, or what is no number, by the text that it is shown as. -/
  | boundless (shown : Text)
  | date
  | string (t : Text)
  | list (items : List Yaml)
  | map (members : List (Text × Yaml))
  deriving Repr

namespace Yaml

/-! ### Whole numbers -/

def digitValue? (b : UInt8) : Option Nat :=
  if 0x30 ≤ b && b ≤ 0x39 then some (b.toNat - 0x30)
  else if 0x61 ≤ b && b ≤ 0x66 then some (b.toNat - 0x57)
  else if 0x41 ≤ b && b ≤ 0x46 then some (b.toNat - 0x37)
  else none

/-- The value of digits in a base; there must be one at least. -/
def digitsIn? (base : Nat) (digits : Text) : Option Nat :=
  if digits.isEmpty then none
  else
    digits.foldlM (fun n b => do
      let d ← digitValue? b
      if d < base then some (n * base + d) else none) 0

def announcedBase (t : Text) : Nat × Text :=
  match t with
  | 0x30 :: mark :: rest =>
    let mark := if 0x41 ≤ mark && mark ≤ 0x5A then mark + 0x20 else mark
    if mark == 0x78 then (16, rest)
    else if mark == 0x6F then (8, rest)
    else if mark == 0x62 then (2, rest)
    else (8, t.drop 1)
  | t => (10, t)

/-- Whether underscores stand only between digits, or between the base and a digit. -/
def underscoresApart (announced : Bool) : Text → Bool
  | [] => true
  | 0x5F :: rest =>
    announced && (rest.head?.map fun b => (digitValue? b).isSome) == some true &&
      underscoresApart false rest
  | _ :: rest => underscoresApart true rest

def signed (t : Text) : Bool × Text :=
  match t with
  | 0x2D :: rest => (true, rest)
  | 0x2B :: rest => (false, rest)
  | t => (false, t)

/-- A number without a sign in the base that it announces; underscores may stand between its digits. -/
def natural? (t : Text) : Option Nat :=
  let (base, digits) := announcedBase t
  if underscoresApart (base != 10) digits then digitsIn? base (digits.filter (· != 0x5F)) else none

def wholeNumber? (t : Text) : Option Int := do
  let (negative, t) := signed t
  let n ← natural? t
  let n : Int := if negative then -(n : Int) else n
  if minInt64 ≤ n && n ≤ maxInt64 then some n else none

def wideNumber? (t : Text) : Option Int := do
  let n ← natural? t
  if maxInt64 < (n : Int) && (n : Int) ≤ 2 * maxInt64 + 1 then some n else none

/-! ### Decimal numbers -/

/-- The exact value of the floating point number nearest to a decimal. -/
def nearest? (negative : Bool) (digits : Nat) (exponent : Int) : Option Number.Dyadic :=
  let x := Float.ofScientific digits (decide (exponent < 0)) exponent.natAbs
  (Number.Dyadic.ofFloat? x).map fun d => { d with negative := negative }

/-- A decimal of the range of floating point numbers; above it there are none, and below it they are
zero. -/
def ranged? (negative : Bool) (digits : Nat) (exponent : Int) : Option Yaml :=
  let lead : Int := (Text.ofNat digits).length + exponent
  if digits == 0 || lead < -330 then some (.decimal negative 0 0)
  else if 310 < lead then none
  else (nearest? negative digits exponent).map fun _ => .decimal negative digits exponent

def decimal? (t : Text) : Option Yaml := do
  let (negative, t) := signed t
  let whole := t.takeWhile Text.isDigit
  let rest := t.drop whole.length
  let (places, rest) :=
    match rest with
    | 0x2E :: rest => (rest.takeWhile Text.isDigit, rest.dropWhile Text.isDigit)
    | rest => ([], rest)
  if whole.isEmpty && places.isEmpty then none
  let exponent ←
    match rest with
    | [] => some (0 : Int)
    | e :: rest =>
      if e != 0x65 && e != 0x45 then none
      else
        let (below, digits) := signed rest
        if digits.isEmpty || !digits.all Text.isDigit then none
        else some (if below then -(Text.digitsValue digits : Int) else Text.digitsValue digits)
  ranged? negative (Text.digitsValue (whole ++ places)) (exponent - places.length)

/-- Drops zeros at the end of the digits; `steps` bounds their number. -/
def stripZeros : Nat → Nat → Int → Nat × Int
  | 0, digits, exponent => (digits, exponent)
  | steps + 1, digits, exponent =>
    if digits != 0 && digits % 10 == 0 then stripZeros steps (digits / 10) (exponent + 1)
    else (digits, exponent)

def decimalText (negative : Bool) (digits : Nat) (exponent : Int) : Text :=
  let (digits, exponent) := stripZeros (Text.ofNat digits).length digits exponent
  let shown := Text.ofNat digits
  (if negative then [0x2D] else []) ++
  if digits == 0 then ("0" : Text)
  else if 0 ≤ exponent then shown ++ List.replicate exponent.toNat 0x30
  else
    let places := (-exponent).toNat
    let padded := List.replicate (places + 1 - shown.length) 0x30 ++ shown
    padded.take (padded.length - places) ++ [0x2E] ++ padded.drop (padded.length - places)

/-- The whole part of the floating point number nearest to a decimal; what does not fit in 64 bits is
the least number. -/
def decimalWhole (negative : Bool) (digits : Nat) (exponent : Int) : Int :=
  match nearest? negative digits exponent with
  | none => minInt64
  | some d =>
    let (above, below) := d.scaled 1
    let n : Int := if negative then -((above / below : Nat) : Int) else ((above / below : Nat) : Int)
    if minInt64 ≤ n && n ≤ maxInt64 then n else minInt64

/-! ### Plain words -/

def isDate (t : Text) : Bool :=
  match t.splitAt 0x2D with
  | [year, month, day] =>
    year.length == 4 && (month.length == 1 || month.length == 2) &&
    (day.length == 1 || day.length == 2) && (year ++ month ++ day).all Text.isDigit &&
    decide (1 ≤ Text.digitsValue month) && decide (Text.digitsValue month ≤ 12) &&
    decide (1 ≤ Text.digitsValue day) && decide (Text.digitsValue day ≤ 31)
  | _ => false

def boundless? (t : Text) : Option Text :=
  if (Text.ofStrings [".nan", ".NaN", ".NAN"]).elem t then some "NaN"
  else
    let infinite (t : Text) : Bool := (Text.ofStrings [".inf", ".Inf", ".INF"]).elem t
    match t with
    | 0x2D :: rest => if infinite rest then some "-Inf" else none
    | 0x2B :: rest => if infinite rest then some "+Inf" else none
    | t => if infinite t then some "+Inf" else none

def ofPlain (t : Text) : Yaml :=
  if (Text.ofStrings ["", "~", "null", "Null", "NULL"]).elem t then .null
  else if (Text.ofStrings ["true", "True", "TRUE"]).elem t then .bool true
  else if (Text.ofStrings ["false", "False", "FALSE"]).elem t then .bool false
  else
    let starts := t.head?.map fun b => Text.isDigit b || b == 0x2B || b == 0x2D || b == 0x2E
    if starts != some true then .string t
    else if isDate t then .date
    else
      let plain := t.filter (· != 0x5F)
      match boundless? t, (wholeNumber? plain).or (wideNumber? plain), decimal? plain with
      | some shown, _, _ => .boundless shown
      | none, some n, _ => .int n
      | none, none, some number => number
      | none, none, none => .string t

/-! ### Readings of a value -/

/-- The value of the last member of a name. -/
def member? (name : Text) : Yaml → Option Yaml
  | .map members => ((members.filter fun (n, _) => n == name).getLast?).map Prod.snd
  | _ => none

/-- A value as a whole number: fractions are cut off, and texts are read as numbers. -/
def toInt? : Yaml → Option Int
  | .int n => some (wrap64 n)
  | .decimal negative digits exponent => some (decimalWhole negative digits exponent)
  | .boundless _ => some minInt64
  | .bool b => some (if b then 1 else 0)
  | .string t => if t.isEmpty then some 0 else wholeNumber? t
  | _ => none

def toText? : Yaml → Option Text
  | .string t => some t
  | .int n => some (Text.ofInt n)
  | .decimal negative digits exponent => some (decimalText negative digits exponent)
  | .boundless shown => some shown
  | .bool b => some (if b then "1" else "0")
  | .null => some []
  | _ => none

/-- A value as a list of texts; one text is divided at its commas. -/
def toTexts? : Yaml → Option (List Text)
  | .string t => some (if t.isEmpty then [] else t.splitAt 0x2C)
  | .list items => items.mapM toText?
  | .map [] => some []
  | value => (toText? value).map fun t => [t]

end Yaml

end ScriptAtlas
