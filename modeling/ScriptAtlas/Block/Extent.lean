import ScriptAtlas.Block.Statement

/-!
Where the construct that a line opens ends. Branches, loops and guarded blocks are followed through
conditions, bodies and `ELSE` chains. The search re-enters lines with other text, so it carries an
explicit number of steps; `Script.steps` gives enough for every search that ends at all.
-/

namespace ScriptAtlas

open Word

inductive BlockKind where
  | branch
  | loop
  | guarded
  | declaration
  | statement
  /-- Lines between resolved blocks. -/
  | sequence
  deriving DecidableEq, Repr

namespace BlockKind

def name : BlockKind → Text
  | branch => "IF"
  | loop => "WHILE"
  | guarded => "TRY"
  | declaration => "DECLARE"
  | statement => "STATEMENT"
  | sequence => "SEQUENCE"

def isControl : BlockKind → Bool
  | branch | loop | guarded => true
  | _ => false

end BlockKind

inductive Extent where
  | found (last : Nat)
  | absent
  | outOfSteps
  deriving DecidableEq, Repr

namespace Extent

def last? : Extent → Option Nat
  | found last => some last
  | _ => none

def andThen (e : Extent) (next : Nat → Extent) : Extent :=
  match e with
  | found last => next last
  | absent => absent
  | outOfSteps => outOfSteps

def ofOption : Option Nat → Extent
  | some last => found last
  | none => absent

end Extent

/-- Lookahead windows and capped extents, in lines. -/
def declarationWindow : Nat := 150

def declarationDefault : Nat := 50

def statementDefault : Nat := 15

def blockWindow : Nat := 2000

def conditionWindow : Nat := 20

namespace Line

def opener (l : Line) : Option BlockKind :=
  if l.isQuiet then none
  else if leadsWith l.code ["IF"] then some .branch
  else if leadsWith l.code ["WHILE"] then some .loop
  else if beginsTry l.code then some .guarded
  else if leadsWith l.code ["DECLARE"] || (!l.declared.isEmpty && l.code.startsWith "@") then
    some .declaration
  else if l.startsStatement then some .statement
  else none

def extendsDeclaration (l : Line) : Bool :=
  !l.declared.isEmpty || leadsWith l.code ["DECLARE", ",", ";", ")"] || setsVariable l.code

end Line

namespace Script

/-- The first of `count` lines from `i` on where nesting, `depth` deep before it, is closed. -/
def closingLine (s : Script) : Nat → Int → Nat → Option Nat
  | 0, _, _ => none
  | count + 1, depth, i =>
    let depth := depth + (s.line i).nesting
    if depth ≤ 0 then some i else closingLine s count depth (i + 1)

/-- The line where nesting opened on line `i`, `depth` deep, is closed. -/
def balancedEnd (s : Script) (limit i : Nat) (depth : Int) : Option Nat :=
  if depth ≤ 0 then some i
  else s.closingLine (min (limit - (i + 1)) blockWindow) depth (i + 1)

/-- `BEGIN TRY … END TRY` followed by `BEGIN CATCH … END CATCH`. -/
def guardedEnd (s : Script) (limit i : Nat) : Option Nat := do
  let tryClose ← s.balancedEnd limit i (s.line i).nesting
  -- Without its second half the block is not complete.
  let handler ← s.nextCode (tryClose + 1) limit
  if beginsCatch (s.line handler).code then
    s.balancedEnd limit handler (s.line handler).nesting
  else none

/-- Follows a condition over code lines no further than line `latest` and returns the line and the
text of the body that it governs. -/
def followCondition (s : Script) (limit latest : Nat) : Nat → Nat → Text → Int → Option (Nat × Text)
  | 0, _, _, _ => none
  | count + 1, i, text, depth =>
    if limit ≤ i || latest < i then none
    else
      match splitCondition text depth with
      | .body rest _ => some (i, rest)
      | .ongoing depth =>
        match s.nextCode (i + 1) limit with
        | none => none
        | some next =>
          let code := (s.line next).code
          if depth > 0 || isDangling text || leadsWith code ["AND", "OR", "NOT"] then
            followCondition s limit latest count next code depth
          else some (next, code)

def conditionEnd (s : Script) (limit i : Nat) (condition : Text) : Option (Nat × Text) :=
  s.followCondition limit (i + conditionWindow) (conditionWindow + 2) i condition 0

/-- The line and text of a body; an empty text stands for the next code line. -/
def bodyStart (s : Script) (limit i : Nat) (text : Text) : Option (Nat × Text) :=
  if text.isEmpty then
    match s.nextCode (i + 1) limit with
    | some next => if next - i > conditionWindow then none else some (next, (s.line next).code)
    | none => none
  else some (i, text)

mutual

/-- The end of a branch whose condition text starts on line `i`, with its `ELSE` chain. -/
def branchEnd (s : Script) (limit : Nat) : Nat → Nat → Text → Extent
  | 0, _, _ => .outOfSteps
  | steps + 1, i, condition =>
    (loopEnd s limit steps i condition).andThen fun last => elseEnd s limit steps last

def loopEnd (s : Script) (limit : Nat) : Nat → Nat → Text → Extent
  | 0, _, _ => .outOfSteps
  | steps + 1, i, condition =>
    match s.conditionEnd limit i condition with
    | some (line, body) => bodyEnd s limit steps line body
    | none => .absent

def bodyEnd (s : Script) (limit : Nat) : Nat → Nat → Text → Extent
  | 0, _, _ => .outOfSteps
  | steps + 1, i, text =>
    match s.bodyStart limit i text with
    | none => .absent
    | some (i, text) =>
      if beginsTry text then .ofOption (s.guardedEnd limit i)
      else if beginsBlock text then .ofOption (s.balancedEnd limit i (Line.nestingOf text))
      else if leadsWith text ["IF"] then branchEnd s limit steps i (afterLeading text)
      else if leadsWith text ["WHILE"] then loopEnd s limit steps i (afterLeading text)
      else .found (s.statementExtent i text limit).last

/-- Extends a branch that ends on line `i` over a following `ELSE`, on the same line or on the next
code line. -/
def elseEnd (s : Script) (limit : Nat) : Nat → Nat → Extent
  | 0, _ => .outOfSteps
  | steps + 1, i =>
    match afterEndElse (s.line i).code with
    | some rest =>
      (elseBody s limit steps i rest).andThen fun last =>
        -- Looked at again, the same line would show the same `END ELSE`.
        if last ≤ i then .found i else elseEnd s limit steps last
    | none =>
      match s.nextCode (i + 1) limit with
      | none => .found i
      | some next =>
        if leadsWith (s.line next).code ["ELSE"] then
          (elseBody s limit steps next (afterLeading (s.line next).code)).andThen fun last =>
            elseEnd s limit steps last
        else .found i

def elseBody (s : Script) (limit : Nat) : Nat → Nat → Text → Extent
  | 0, _, _ => .outOfSteps
  | steps + 1, i, text =>
    -- The `ELSE` of an `ELSE IF` goes on with the chain and is left to `elseEnd`.
    if leadsWith text ["IF"] then loopEnd s limit steps i (afterLeading text)
    else bodyEnd s limit steps i text

end

def closedFrom (s : Script) (earliest : Nat) : Nat → Int → Nat → Option Nat
  | 0, _, _ => none
  | count + 1, depth, i =>
    let depth := depth + (s.line i).parens
    if earliest ≤ i && depth ≤ 0 then some i else closedFrom s earliest count depth (i + 1)

/-- The first line at or after `cap` where the parentheses opened since line `i` are closed. -/
def cappedEnd (s : Script) (limit i cap : Nat) : Option Nat :=
  s.closedFrom (min cap (limit - 1)) (min (limit - i) (blockWindow + 1)) 0 i

/-- Consumes declarations, list continuations and assignments over at most `count` lines from `i` on,
of which `room` lie in the window; nothing is returned when the window runs out first. -/
def followDeclaration (s : Script) (limit : Nat) :
    Nat → Nat → Nat → Nat → Int → Nat → Option Nat
  | 0, _, _, last, _, _ => some last
  | count + 1, room, skip, last, depth, i =>
    match skip with
    -- The query of a cursor was followed to its end before.
    | skip + 1 => followDeclaration s limit count (room - 1) skip last depth (i + 1)
    | 0 =>
      match room with
      | 0 => none
      | room + 1 =>
        let l := s.line i
        if l.isQuiet then followDeclaration s limit count room 0 last depth (i + 1)
        -- The columns of a table lead with any word until their parentheses close.
        else if depth > 0 then
          followDeclaration s limit count room 0 i (max 0 (depth + l.parens)) (i + 1)
        else if !l.extendsDeclaration then some last
        else if l.hasOperation "CURSOR" then
          let stop := (s.statementExtent i l.code limit).last
          followDeclaration s limit count room (stop - i) stop depth (i + 1)
        else followDeclaration s limit count room 0 i (max 0 l.parens) (i + 1)

def declarationEnd (s : Script) (limit i : Nat) : Option Nat :=
  match s.followDeclaration limit (limit - i) declarationWindow 0 i 0 i with
  | some last => some last
  | none => s.cappedEnd limit i (i + declarationDefault)

/-- The end of a statement, or of a capped extent when its own end lies beyond the window. -/
def statementEnd (s : Script) (limit i : Nat) : Option Nat :=
  let extent := s.statementExtent i (s.line i).code limit
  if extent.complete then some extent.last
  else s.cappedEnd limit i (i + statementDefault)

def extentWithin (s : Script) (limit steps i : Nat) : Extent :=
  let l := s.line i
  match l.opener with
  | some .branch => s.branchEnd limit steps i (afterLeading l.code)
  | some .loop => s.loopEnd limit steps i (afterLeading l.code)
  | some .guarded => .ofOption (s.guardedEnd limit i)
  | some .declaration => .ofOption (s.declarationEnd limit i)
  | some .statement => .ofOption (s.statementEnd limit i)
  | _ => .absent

/-- A number of steps that suffices for every search that ends: a search moves on to a later line or
to a shorter text on the same line, but for a bounded number of steps in between. -/
def steps (s : Script) : Nat :=
  8 * (s.foldl (fun n l => n + l.code.length + 4) 8)

def extent (s : Script) (i : Nat) : Extent :=
  s.extentWithin s.size s.steps i

end Script

end ScriptAtlas
