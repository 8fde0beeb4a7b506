import ScriptAtlas.Cut.Candidates
import ScriptAtlas.Cut.Safety

/-!
The division of oversized blocks: proposed cuts are settled at safe places, cuts that would leave
parts too short are dropped, and parts that are still oversized are divided again.
-/

namespace ScriptAtlas

structure Divider where
  sizing : Sizing
  script : Script

/-- Cuts with the source that proposed them first. -/
abbrev Cuts := List (Nat × CutSource)

namespace Cuts

def add (cuts : Cuts) (p : Nat) (source : CutSource) : Cuts :=
  if cuts.any fun (q, _) => q == p then cuts else cuts ++ [(p, source)]

def sorted (cuts : Cuts) : List Nat :=
  (cuts.map Prod.fst).mergeSort fun p q => p ≤ q

def sourceOf (cuts : Cuts) (p : Nat) : Option CutSource :=
  (cuts.find? fun (q, _) => q == p).map Prod.snd

end Cuts

def addSources (sources new : List CutSource) : List CutSource :=
  new.foldl (fun known source => if known.elem source then known else known ++ [source]) sources

namespace Divider

/-- Whether lines `[lo, hi)` break a ceiling of the strategy. -/
def isOversized (d : Divider) (lo hi : Nat) : Bool :=
  if d.sizing.strategy = .strictLogical then false
  else
    let lines : Int := (hi - lo : Nat)
    lines > d.sizing.max || (d.sizing.strategy = .hybrid && lines > d.sizing.force) ||
      (d.script.weight lo hi : Int) > d.sizing.complexity

def trigger (d : Divider) (lo hi : Nat) : Text :=
  let lines : Int := (hi - lo : Nat)
  let weight : Int := d.script.weight lo hi
  let size : List Text :=
    if d.sizing.strategy = .hybrid && lines > d.sizing.force then
      [Text.ofInt lines ++ " lines exceed the forced subdivision threshold of " ++
        Text.ofInt d.sizing.force]
    else if lines > d.sizing.max then
      [Text.ofInt lines ++ " lines exceed the maximum of " ++ Text.ofInt d.sizing.max]
    else []
  let heavy : List Text :=
    if weight > d.sizing.complexity then
      ["complexity " ++ Text.ofInt weight ++ " exceeds the maximum of " ++
        Text.ofInt d.sizing.complexity]
    else []
  Text.join " and " (size ++ heavy)

/-- Keeps, from left to right, the points that leave at least the minimum of lines before them. -/
def keepApart (least : Int) : Nat → List Nat → List Nat
  | _, [] => []
  | last, p :: rest =>
    if least ≤ (p : Int) - last then p :: keepApart least p rest else keepApart least last rest

def spaced (d : Divider) (lo hi : Nat) (cuts : Cuts) : List Nat :=
  ((keepApart d.sizing.min lo cuts.sorted).reverse.dropWhile fun (p : Nat) =>
    decide ((hi : Int) - p < d.sizing.min)).reverse

/-- Whether a part between points is oversized, or the last part up to `hi`. -/
def anyOversized (d : Divider) (hi : Nat) : Nat → List Nat → Bool
  | last, [] => d.isOversized last hi
  | last, p :: rest => d.isOversized last p || anyOversized d hi p rest

def consult (d : Divider) (lo hi : Nat) (cuts : Cuts) (source : CutSource) : Cuts :=
  let range : CutRange := ⟨d.script, lo, hi⟩
  (d.script.proposed d.sizing source lo hi).foldl (fun cuts p =>
    match range.settle p with
    | some q => cuts.add q source
    | none => cuts) cuts

/-- Consults one source after the other as long as a part is oversized. -/
def consultWhileOversized (d : Divider) (lo hi : Nat) : List CutSource → Cuts → Cuts
  | [], cuts => cuts
  | source :: rest, cuts =>
    if d.anyOversized hi lo (d.spaced lo hi cuts) then
      consultWhileOversized d lo hi rest (d.consult lo hi cuts source)
    else cuts

def settledCuts (d : Divider) (lo hi : Nat) : Cuts :=
  let cuts := [CutSource.sections, .business, .nesting].foldl (d.consult lo hi) []
  let cuts := d.consultWhileOversized lo hi [.groups, .branches, .statements] cuts
  -- The last resort for a block of more than twice the weight ceiling, as a 64-bit number.
  if cuts.length < 2 && (d.script.weight lo hi : Int) > wrap64 (2 * d.sizing.complexity) then
    d.consult lo hi cuts .forced
  else cuts

/-- The cuts of lines `[lo, hi)` and what proposed them. -/
def cutPoints (d : Divider) (lo hi : Nat) : List Nat × List CutSource :=
  let cuts := d.settledCuts lo hi
  let points := d.spaced lo hi cuts
  (points, addSources [] (points.filterMap cuts.sourceOf))

def partsBetween (hi : Nat) : Nat → List Nat → List (Nat × Nat)
  | last, [] => [(last, hi)]
  | last, p :: rest => (last, p) :: partsBetween hi p rest

/-- Divides lines `[lo, hi)`, at most `budget` times over, into parts in order, with the sources of
their cuts. -/
def divide (d : Divider) : Nat → Nat → Nat → List Block × List CutSource
  | 0, lo, hi => ([d.script.block lo hi .sequence], [])
  | budget + 1, lo, hi =>
    if !d.isOversized lo hi then ([d.script.block lo hi .sequence], [])
    else
      let (points, sources) := d.cutPoints lo hi
      if points.isEmpty then ([d.script.block lo hi .sequence], [])
      else
        (partsBetween hi lo points).foldl (fun (parts, sources) (a, b) =>
          let (inner, innerSources) := divide d budget a b
          -- A part that cannot be divided any further stays as it is, oversized or not.
          if d.isOversized a b && 1 < inner.length then
            (parts ++ inner, addSources sources innerSources)
          else (parts ++ [d.script.block a b .sequence], sources)) ([], sources)

def parts (d : Divider) (lo hi : Nat) : List Block × List CutSource :=
  d.divide d.sizing.depth.toNat lo hi

end Divider

end ScriptAtlas
