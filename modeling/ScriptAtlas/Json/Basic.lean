import ScriptAtlas.Text.Case

/-!
JSON values. Numbers keep their literal and objects the order and repetition of their members, since
what reads them decides what they mean.
-/

namespace ScriptAtlas

inductive Json where
  | null
  | bool (b : Bool)
  | number (literal : Text)
  | string (t : Text)
  | array (items : List Json)
  | object (members : List (Text × Json))
  deriving Repr

namespace Json

def ofInt (n : Int) : Json :=
  number (Text.ofInt n)

def ofNat (n : Nat) : Json :=
  number (Text.ofNat n)

def ofTexts (ts : List Text) : Json :=
  array (ts.map string)

def ofInts (ns : List Int) : Json :=
  array (ns.map ofInt)

def fields (members : List (String × Json)) : List (Text × Json) :=
  members.map fun (name, value) => (Text.ofString name, value)

def record (members : List (String × Json)) : Json :=
  object (fields members)

/-- The value of the last member of a name, exactly as written. -/
def get? (name : Text) : Json → Option Json
  | object members => ((members.filter fun (n, _) => n == name).getLast?).map Prod.snd
  | _ => none

/-- The integer of a literal without fraction and exponent, if it is a 64-bit number. -/
def intOfLiteral (literal : Text) : Option Int :=
  let (negative, digits) :=
    match literal with
    | 0x2D :: rest => (true, rest)
    | digits => (false, digits)
  if digits.isEmpty || !digits.all Text.isDigit then none
  else
    let n : Int := if negative then -(Text.digitsValue digits : Int) else Text.digitsValue digits
    if minInt64 ≤ n && n ≤ maxInt64 then some n else none

end Json

end ScriptAtlas
