import ScriptAtlas.Number.Dyadic

/-!
Decimal text of floating point numbers with a fixed number of places. The exact binary value is rounded
to the nearest decimal, a half going to the even neighbour.
-/

namespace ScriptAtlas.Number

/-- The quotient rounded to the nearest integer, a half to the even one. -/
def roundDiv (n d : Nat) : Nat :=
  let q := n / d
  let r := n % d
  if 2 * r < d then q else if d < 2 * r then q + 1 else if q % 2 == 0 then q else q + 1

/-- Digits of `n / 10 ^ places`. -/
def placed (places n : Nat) : Text :=
  let digits := Text.ofNat n
  if places == 0 then digits
  else
    let digits := List.replicate (places + 1 - digits.length) 0x30 ++ digits
    digits.take (digits.length - places) ++ [0x2E] ++ digits.drop (digits.length - places)

def fixed (places : Nat) (x : Float) : Text :=
  match Dyadic.ofFloat? x with
  | none => if fractionOf x != 0 then "NaN" else if signOf x then "-Inf" else "+Inf"
  | some d =>
    let (numerator, denominator) := d.scaled (Nat.pow 10 places)
    (if d.negative then [0x2D] else []) ++ placed places (roundDiv numerator denominator)

end ScriptAtlas.Number
