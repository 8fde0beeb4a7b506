import ScriptAtlas.Number.Dyadic

/-!
Numbers by their decimal literal, as floating point numbers, and their whole part.
-/

namespace ScriptAtlas.Number

/-- Sign, digits, and the power of ten of a literal with optional fraction and exponent. -/
def literalParts (literal : Text) : Bool × Nat × Int :=
  let (negative, t) :=
    match literal with
    | 0x2D :: rest => (true, rest)
    | t => (false, t)
  let whole := t.takeWhile Text.isDigit
  let rest := t.drop whole.length
  let (places, rest) :=
    match rest with
    | 0x2E :: rest => (rest.takeWhile Text.isDigit, rest.dropWhile Text.isDigit)
    | rest => ([], rest)
  let exponent : Int :=
    match rest with
    | _ :: 0x2D :: digits => -(Text.digitsValue digits : Int)
    | _ :: 0x2B :: digits => Text.digitsValue digits
    | _ :: digits => Text.digitsValue digits
    | [] => 0
  (negative, Text.digitsValue (whole ++ places), exponent - places.length)

def ofLiteral (literal : Text) : Float :=
  let (negative, digits, exponent) := literalParts literal
  let magnitude := Float.ofScientific digits (exponent < 0) exponent.natAbs
  if negative then -magnitude else magnitude

/-- The whole part of a number; one beyond 64 bits gives the least 64-bit integer. -/
def truncated (x : Float) : Int :=
  match Dyadic.ofFloat? x with
  | none => minInt64
  | some d =>
    let (numerator, denominator) := d.scaled 1
    let whole : Nat := numerator / denominator
    let n : Int := if d.negative then -(whole : Int) else whole
    if minInt64 ≤ n && n ≤ maxInt64 then n else minInt64

end ScriptAtlas.Number
