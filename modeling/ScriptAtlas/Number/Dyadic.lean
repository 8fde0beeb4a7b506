import ScriptAtlas.Text.Basic

/-!
The exact value of a floating point number: an integer times a power of two.
-/

namespace ScriptAtlas.Number

/-- The number `mantissa * 2 ^ (power - 1075)`, with its sign beside it. -/
structure Dyadic where
  negative : Bool
  mantissa : Nat
  power : Nat
  deriving DecidableEq, Repr

/-- Where the sign stands in the bits of a number. -/
def signWeight : Nat := 9223372036854775808

/-- Where the exponent stands; below it is the fraction. -/
def exponentWeight : Nat := 4503599627370496

def signOf (x : Float) : Bool :=
  x.toBits.toNat / signWeight == 1

def exponentOf (x : Float) : Nat :=
  x.toBits.toNat / exponentWeight % 2048

def fractionOf (x : Float) : Nat :=
  x.toBits.toNat % exponentWeight

def topExponent : Nat := 2047

namespace Dyadic

/-- The value of a number; infinities and what is no number have none. -/
def ofFloat? (x : Float) : Option Dyadic :=
  if exponentOf x == topExponent then none
  else if exponentOf x == 0 then some ⟨signOf x, fractionOf x, 1⟩
  else some ⟨signOf x, fractionOf x + exponentWeight, exponentOf x⟩

def scaled (d : Dyadic) (scale : Nat) : Nat × Nat :=
  if 1075 ≤ d.power then (d.mantissa * Nat.pow 2 (d.power - 1075) * scale, 1)
  else (d.mantissa * scale, Nat.pow 2 (1075 - d.power))

end Dyadic

end ScriptAtlas.Number
