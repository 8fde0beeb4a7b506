import ScriptAtlas.Block.Extent

/-!
Where a block may be cut. A cut before line `p` of the lines `[lo, hi)` is safe when it separates no
branch from its header, no statement and no parenthesised or `CASE` group.
-/

namespace ScriptAtlas

open Word

/-- Lines that a rejected cut may move on. -/
def relocationWindow : Nat := 15

/-- Lines that are searched backward for a statement that reaches a cut. -/
def backwardWindow : Nat := 40

/-- The lines `[lo, hi)` of a script, within which cuts are judged. -/
structure CutRange where
  script : Script
  lo : Nat
  hi : Nat

namespace CutRange

def parens (r : CutRange) (p : Nat) : Int :=
  r.script.total Line.parens (p - r.lo) r.lo

def nesting (r : CutRange) (p : Nat) : Int :=
  r.script.total Line.nesting (p - r.lo) r.lo

/-- Scans at most `count` lines back from before `stop` to the nearest condition or `CASE` and tells
whether its parentheses or `CASE` are still open. -/
def conditionOpen (r : CutRange) : Nat → Int → Int → Nat → Bool
  | 0, _, _, _ => false
  | _ + 1, _, _, 0 => false
  | count + 1, parens, cases, i + 1 =>
    if i < r.lo then false
    else
      let l := r.script.line i
      if l.isQuiet then conditionOpen r count parens cases i
      else
        let parens := parens + l.parens
        let cases := cases + StatementScan.caseBalance l.code
        if leadsWith l.code ["IF", "WHILE"] ||
            (leadsWith l.code ["ELSE"] && leadsWith (afterLeading l.code) ["IF"]) then
          parens > 0 || cases > 0
        -- The lines below do not end this `CASE`.
        else if leadsWith l.code ["CASE"] && cases > 0 then true
        else if beginsBlock l.code || l.startsStatement then false
        else conditionOpen r count parens cases i

def insideCondition (r : CutRange) (i : Nat) : Bool :=
  r.conditionOpen (conditionWindow + 1) 0 0 (i + 1)

/-- Whether a statement that begins on one of `count` lines back from before `stop` reaches line `p`.
-/
def statementReaches (r : CutRange) (p : Nat) : Nat → Nat → Bool
  | 0, _ => false
  | _ + 1, 0 => false
  | count + 1, i + 1 =>
    if i < r.lo then false
    else
      (match (r.script.line i).statementText with
        | some text => p ≤ (r.script.statementExtent i text r.hi).last
        | none => false) ||
      statementReaches r p count i

def insideStatement (r : CutRange) (p prev : Nat) : Bool :=
  r.statementReaches p (backwardWindow + 1) (prev + 1)

/-- Whether a line of code can stand at the beginning of a part. -/
def canLead (code : Text) : Bool :=
  !leadsWith code ["ELSE", "WHEN", "THEN", "CATCH", "AND", "OR", "NOT"] &&
    !beginsCatch code && !beginsBlock code

/-- Whether a cut before line `p` keeps constructs intact. -/
def isSafe (r : CutRange) (p : Nat) : Bool :=
  if p ≤ r.lo || r.hi ≤ p then false
  else if r.parens p > 0 then false
  else
    match r.script.nextCode p r.hi, r.script.prevCode r.lo p with
    | some next, some prev =>
      canLead (r.script.line next).code && !isPendingHeader (r.script.line prev).code &&
        !r.insideCondition prev && !r.insideStatement p prev
    -- With no code on one side there is nothing to tear apart.
    | _, _ => true

/-- Whether line `q` is a natural place for a cut that was rejected elsewhere. -/
def isNatural (r : CutRange) (q : Nat) : Bool :=
  let l := r.script.line q
  if l.isQuiet || l.startsStatement || l.startsControl || !l.declared.isEmpty then true
  else
    match r.script.prevCode r.lo q with
    | none => false
    | some prev =>
      let code := (r.script.line prev).code
      if leadsWith code ["IF", "WHILE", "ELSE"] then code.endsWith "BEGIN" else beginsBlock code

def tooDeep (ceiling : Option Int) (depth : Int) : Bool :=
  match ceiling with
  | some ceiling => ceiling < depth
  | none => false

/-- The first safe natural place among `count` lines from `q` on, no deeper than `ceiling` if one is
given; `depth` is the nesting before `q`. -/
def relocateFrom (r : CutRange) (ceiling : Option Int) : Nat → Int → Nat → Option Nat
  | 0, _, _ => none
  | count + 1, depth, q =>
    let next := depth + (r.script.line q).nesting
    if !tooDeep ceiling depth && r.isNatural q && r.isSafe q then some q
    else relocateFrom r ceiling count next (q + 1)

/-- The nearest safe natural place after `p`, within the window; `shallow` asks for one that lies no
deeper than `p`. -/
def relocate (r : CutRange) (p : Nat) (shallow : Bool) : Option Nat :=
  r.relocateFrom (if shallow then some (r.nesting p) else none)
    (min (r.hi - (p + 1)) relocationWindow) (r.nesting (p + 1)) (p + 1)

/-- The cut itself when it is safe, otherwise the nearest safe place after it. -/
def settle (r : CutRange) (p : Nat) : Option Nat :=
  if r.isSafe p then some p
  else
    -- A cut before an `ELSE` moves past its body rather than into it.
    match r.relocate p true with
    | some q => some q
    | none => r.relocate p false

end CutRange

end ScriptAtlas
