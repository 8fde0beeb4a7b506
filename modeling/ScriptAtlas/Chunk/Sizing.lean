import ScriptAtlas.Text.Quoted

/-!
How large chunks may grow: the strategy for oversized blocks, and the size and weight ceilings.
-/

namespace ScriptAtlas

inductive Strategy where
  | strictLogical
  /-- Blocks above the size or weight ceiling are divided. -/
  | sizeConstrained
  /-- Blocks above the forced threshold are divided as well. -/
  | hybrid
  | unknown (name : Text)
  deriving DecidableEq, Repr

namespace Strategy

def name : Strategy → Text
  | strictLogical => "strict_logical"
  | sizeConstrained => "size_constrained"
  | hybrid => "hybrid"
  | unknown name => name

def ofName (name : Text) : Strategy :=
  if name == strictLogical.name then strictLogical
  else if name == sizeConstrained.name then sizeConstrained
  else if name == hybrid.name then hybrid
  else unknown name

end Strategy

structure Sizing where
  strategy : Strategy := .unknown []
  target : Int := 0
  /-- Parts shorter than this are not cut. -/
  min : Int := 0
  /-- Lines above which a block is divided. -/
  max : Int := 0
  /-- Lines above which the hybrid strategy divides. -/
  force : Int := 0
  complexity : Int := 0
  /-- How often a part may be divided again. -/
  depth : Int := 0
  deriving DecidableEq, Repr

inductive SizingError where
  | unknownStrategy (name : Text)
  | sizesNotPositive
  | minAboveTarget (min target : Int)
  | targetAboveMax (target max : Int)
  | thresholdsNotPositive
  | depthTooSmall
  deriving DecidableEq, Repr

def SizingError.message (e : SizingError) : Text :=
  "invalid chunker config: " ++
  match e with
  | unknownStrategy name => "unknown strategy " ++ name.quoted
  | sizesNotPositive => "chunk sizes must be positive"
  | minAboveTarget min target =>
    "min size " ++ Text.ofInt min ++ " exceeds target size " ++ Text.ofInt target
  | targetAboveMax target max =>
    "target size " ++ Text.ofInt target ++ " exceeds max size " ++ Text.ofInt max
  | thresholdsNotPositive => "thresholds must be positive"
  | depthTooSmall => "recursion depth must be at least 1"

namespace Strategy

def parse (name : Text) : Except SizingError Strategy :=
  match ofName name with
  | unknown name => .error (.unknownStrategy name)
  | strategy => .ok strategy

end Strategy

namespace Sizing

def default : Sizing where
  strategy := .hybrid
  target := 60
  min := 10
  max := 120
  force := 200
  complexity := 80
  depth := 3

/-- Fills in defaults for what is empty or not positive. -/
def normalized (z : Sizing) : Sizing where
  strategy := if z.strategy = .unknown [] then default.strategy else z.strategy
  target := if z.target ≤ 0 then default.target else z.target
  min := if z.min ≤ 0 then default.min else z.min
  max := if z.max ≤ 0 then default.max else z.max
  force := if z.force ≤ 0 then default.force else z.force
  complexity := if z.complexity ≤ 0 then default.complexity else z.complexity
  depth := if z.depth ≤ 0 then default.depth else z.depth

def check (z : Sizing) : Except SizingError Unit := do
  let _ ← Strategy.parse z.strategy.name
  if z.min ≤ 0 || z.target ≤ 0 || z.max ≤ 0 then throw .sizesNotPositive
  if z.target < z.min then throw (.minAboveTarget z.min z.target)
  if z.max < z.target then throw (.targetAboveMax z.target z.max)
  if z.force ≤ 0 || z.complexity ≤ 0 then throw .thresholdsNotPositive
  if z.depth < 1 then throw .depthTooSmall

/-- The sizing with its defaults filled in, if it can be used. -/
def resolve (z : Sizing) : Except SizingError Sizing := do
  z.normalized.check
  return z.normalized

end Sizing

end ScriptAtlas
