import ScriptAtlas.Glob.Matcher

/-!
From expressions to matchers. Neighbouring parts are glued together where one matcher can do their
work, the longest part of fixed length becomes the pivot of a search tree, and common parts of
alternatives are taken out of their braces. Together this is the library of patterns that the program runs.
-/

namespace ScriptAtlas

namespace Matcher

def pathSeparators : List Char :=
  ['/']

def searching (pivot : Matcher) (left right : Option Matcher) : Matcher :=
  .tree pivot left right
    (match left with
      | none => some 0
      | some m => m.length?)
    (match right with
      | none => some 0
      | some m => m.length?)

/-! ### Gluing -/

/-- What a part that repeats over characters contributes: its separators, whether it is `**`, `*` or
one character. -/
inductive Contribution where
  | deep
  | any (separators : List Char)
  | one (separators : List Char)
  deriving DecidableEq, Repr

namespace Contribution

def of? : Matcher → Option Contribution
  | .deep => some .deep
  | .any separators => some (.any separators)
  | .single separators => some (.one separators)
  | .among chars true => some (.one chars)
  | _ => none

def separators : Contribution → List Char
  | deep => []
  | any s | one s => s

def isDeep : Contribution → Bool
  | deep => true
  | _ => false

def isAny : Contribution → Bool
  | any _ => true
  | _ => false

def isOne : Contribution → Bool
  | one _ => true
  | _ => false

end Contribution

/-- Several parts that exclude the same characters, as one matcher. -/
def glueEvery (parts : List Matcher) : Option Matcher :=
  match parts.mapM Contribution.of? with
  | none => none
  | some contributions =>
    match contributions with
    | [] | [_] => none
    | first :: _ =>
      let separators := first.separators
      if contributions.any fun c => c.separators != separators then none
      else
        let hasDeep := contributions.any Contribution.isDeep
        let hasAny := contributions.any Contribution.isAny
        let count := contributions.countP Contribution.isOne
        if hasDeep && !hasAny && count == 0 then some .deep
        else if hasAny && !hasDeep && count == 0 then some (.any separators)
        else if (hasAny || hasDeep) && count != 0 && separators.isEmpty then some (.atLeast count)
        else
          some (.every
            ((if count == 0 then []
              else .atLeast count :: if hasAny || hasDeep then [] else [.atMost count]) ++
            if separators.isEmpty then [] else [.lacks (Text.ofChars separators)]))

def glueRow (parts : List Matcher) : Option Matcher :=
  match parts with
  | [] | [_] => none
  | _ => (parts.mapM length?).map fun lengths => .row (lengths.foldr Nat.add 0) parts

def glue (parts : List Matcher) : Option Matcher :=
  match glueEvery parts with
  | some m => some m
  | none => glueRow parts

structure Glued where
  left : Nat
  right : Nat
  whole : Matcher
  deriving Repr

/-- Whether a later slice is preferred: it is longer, or both lengths are fixed and its is larger. -/
def Glued.precededBy (later : Glued) : Option Glued → Bool
  | none => true
  | some best =>
    (match best.whole.length?, later.whole.length? with
      | some a, some b => decide (a < b)
      | _, _ => false) ||
    decide (best.right - best.left < later.right - later.left)

/-- The slices of `count` parts, from left to right and the longest first. -/
def slices (count : Nat) : List (Nat × Nat) :=
  (List.range count).flatMap fun l => (List.range (count - l)).map fun k => (l, count - k)

def bestGlued (parts : List Matcher) : Option Glued :=
  (slices parts.length).foldl
    (fun best (l, r) =>
      match glue ((parts.take r).drop l) with
      | none => best
      | some whole =>
        let candidate : Glued := ⟨l, r, whole⟩
        if candidate.precededBy best then some candidate else best)
    none

/-- Glues slices until none is left, in at most `steps` rounds. -/
def condense : Nat → List Matcher → List Matcher
  | 0, parts => parts
  | steps + 1, parts =>
    match bestGlued parts with
    | none => parts
    | some g => condense steps (parts.take g.left ++ g.whole :: parts.drop g.right)

/-- The last part with the greatest fixed length, with its place. -/
def pivotOf (parts : List Matcher) : Option (Nat × Matcher) :=
  (parts.zipIdx.foldl
    (fun best (m, i) =>
      match m.length?, best with
      | none, best => best
      | some n, none => some (n, i, m)
      | some n, some (longest, k, p) => if longest ≤ n then some (n, i, m) else some (longest, k, p))
    none).map Prod.snd

def assemble : Nat → List Matcher → Option Matcher
  | 0, _ => none
  | _ + 1, [] => none
  | _ + 1, [m] => some m
  | steps + 1, first :: rest =>
    let parts := first :: rest
    match glue parts with
    | some m => some m
    | none =>
      match pivotOf parts with
      | none => some (searching first none (assemble steps rest))
      | some (i, pivot) =>
        some (searching pivot (assemble steps (parts.take i)) (assemble steps (parts.drop (i + 1))))

/-! ### Simpler forms -/

mutual

def simplify : Matcher → Matcher
  | .any [] => .deep
  | .anyOf [m] => m
  | .among [c] false => .literal (Text.ofChars [c])
  | .tree pivot left right leftLength rightLength =>
    let left := simplifySide left
    let right := simplifySide right
    match pivot with
    | .literal t =>
      match left, right with
      | none, none => .literal t
      | some .deep, some .deep => .contains t
      | some .deep, none => .back t
      | none, some .deep => .front t
      | none, some (.back e) => .frontBack t e
      | some (.front s), none => .frontBack s t
      | some (.any separators), none => .anyBack t separators
      | none, some (.any separators) => .frontAny t separators
      | left, right => .tree (.literal t) left right leftLength rightLength
    | pivot => .tree pivot left right leftLength rightLength
  | m => m

def simplifySide : Option Matcher → Option Matcher
  | none => none
  | some m => some (simplify m)

end

end Matcher

namespace GlobNode

/-! ### Common parts of alternatives -/

def parts : GlobNode → List GlobNode
  | .seq parts => parts
  | _ => []

def leastOption (options : List GlobNode) : Option (Nat × List GlobNode) :=
  (options.zipIdx.foldl
    (fun best (node, i) =>
      let parts := node.parts
      match best with
      | none => some (i, parts)
      | some (k, least) => if parts.length < least.length then some (i, parts) else some (k, least))
    none)

structure Ended where
  left : Bool
  right : Bool
  deriving DecidableEq, Repr

/-- Compares the `i`-th part from the left and the part at `j` of the least option with those of the
others. -/
def compareAt (least : List GlobNode) (i j : Nat) : List (List GlobNode) → Ended → Ended
  | [], e => e
  | other :: rest, e =>
    if e.left && e.right then e
    else
      let partAt (parts : List GlobNode) (k : Nat) := (parts[k]?).getD .nothing
      let left := e.left || !same (partAt least i) (partAt other i)
      let right := e.right || (!left && decide (j ≤ i)) ||
        !same (partAt least j) (partAt other (j + other.length - least.length))
      compareAt least i j rest ⟨left, right⟩

/-- The number of common parts on the left and on the right, counted inwards from both ends. -/
def commonParts (least : List GlobNode) (others : List (List GlobNode)) :
    Nat → Nat → Ended → Nat → Nat → Nat × Nat
  | 0, _, _, left, right => (left, right)
  | j + 1, i, e, left, right =>
    if least.length ≤ left + right || (e.left && e.right) then (left, right)
    else
      let e := compareAt least i j others e
      commonParts least others j (i + 1) e (if e.left then left else left + 1)
        (if e.right then right else least.length - j)

def appendNew (nodes : List GlobNode) (node : GlobNode) : List GlobNode :=
  if nodes.any (same node) then nodes else nodes ++ [node]

/-- Alternatives with their common parts taken out, if there are any. -/
def factored (options : List GlobNode) : Option GlobNode :=
  match options, leastOption options with
  | [], _ | [_], _ | _, none => none
  | _, some (place, least) =>
    let others := (options.eraseIdx place).map parts
    let (left, right) := commonParts least others least.length 0 ⟨false, false⟩ 0 0
    if left == 0 && right == 0 then none
    else
      let inner := options.foldl
        (fun nodes option =>
          let kept := (option.parts.take (option.parts.length - right)).drop left
          appendNew nodes (if kept.isEmpty then .nothing else .seq kept)) []
      let middle :=
        match inner with
        | [] | [.nothing] => []
        | [node] => [node]
        | nodes => [.alternatives nodes]
      some (.seq
        ((if left == 0 then [] else [.seq (least.take left)]) ++ middle ++
        if right == 0 then [] else [.seq (least.drop (least.length - right))]))

def compile : Nat → GlobNode → Matcher
  | 0, _ => .nothing
  | steps + 1, node =>
    match node with
    | .literal t => .literal t
    | .single => .single Matcher.pathSeparators
    | .any => .any Matcher.pathSeparators
    | .deep => .deep
    | .among chars negated => Matcher.simplify (.among chars negated)
    | .within lo hi negated => .within lo hi negated
    | .nothing => .nothing
    | .seq [] => .nothing
    | .seq parts =>
      let matchers := Matcher.condense parts.length (parts.map (compile steps))
      match Matcher.assemble matchers.length matchers with
      | some m => m.simplify
      | none => .nothing
    | .alternatives options =>
      match factored options with
      | some node => compile steps node
      | none => .anyOf (options.map (compile steps))

end GlobNode

structure Glob where
  matcher : Matcher
  deriving Repr

namespace Glob

/-- Compiles an expression. Each byte of it adds at most four levels. -/
def compile (t : Text) : Except GlobError Glob :=
  (GlobNode.parse t).map fun node => ⟨GlobNode.compile (4 * t.length + 4) node⟩

def accepts (g : Glob) (path : Text) : Bool :=
  g.matcher.accepts path

def library (pattern : Text) : Except Text (Text → Bool) :=
  match compile pattern with
  | .ok g => .ok g.accepts
  | .error e => .error e.message

end Glob

end ScriptAtlas
