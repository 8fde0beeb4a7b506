import ScriptAtlas.Block.Extent

/-!
The plan of a script: maximal complete blocks in one sweep, with the lines between them as blocks of
their own, so that the plan covers every line exactly once.
-/

namespace ScriptAtlas

/-- Lines `[start, stop)` with the construct that opens them. -/
structure Block where
  start : Nat
  stop : Nat
  kind : BlockKind
  weight : Nat
  deriving DecidableEq, Repr

namespace Block

def lines (b : Block) : Nat :=
  b.stop - b.start

end Block

namespace Script

def block (s : Script) (lo hi : Nat) (kind : BlockKind) : Block :=
  ⟨lo, hi, kind, s.weight lo hi⟩

def between (s : Script) (lo hi : Nat) : List Block :=
  if lo < hi then [s.block lo hi .sequence] else []

def openedBlock (s : Script) (steps i : Nat) : Option (BlockKind × Nat) :=
  match (s.line i).opener with
  | none => none
  | some kind =>
    match (s.extentWithin s.size steps i).last? with
    | none => none
    -- A declaration or statement on one line alone stays between the blocks.
    | some last => if kind.isControl || i < last then some (kind, last) else none

/-- Sweeps at most `count` steps from line `i` on; `pending` is the first line that belongs to no
block yet. -/
def sweep (s : Script) (steps : Nat) : Nat → Nat → Nat → List Block
  | 0, pending, _ => s.between pending s.size
  | count + 1, pending, i =>
    if s.size ≤ i then s.between pending s.size
    else
      match s.openedBlock steps i with
      | none => sweep s steps count pending (i + 1)
      | some (kind, last) =>
        s.between pending i ++ s.block i (last + 1) kind :: sweep s steps count (last + 1) (last + 1)

/-- The lines at which a sweep of at most `count` steps from line `i` on looks for a construct. -/
def searched (s : Script) (steps : Nat) : Nat → Nat → List Nat
  | 0, _ => []
  | count + 1, i =>
    if s.size ≤ i then []
    else
      match s.openedBlock steps i with
      | none => i :: searched s steps count (i + 1)
      | some (_, last) => i :: searched s steps count (last + 1)

/-- Whether every search of the sweep ends. A script with one that does not has no plan: what `plan`
and the chunks built from it say about it carries no meaning. -/
def hasPlan (s : Script) : Bool :=
  (s.searched s.steps s.size 0).all fun i => s.extent i != .outOfSteps

/-- Folds blocks without code into the block that follows; `pending` is where such lines begin. -/
def foldQuiet (s : Script) : Option Nat → List Block → List Block
  | none, [] => []
  -- At the end no block follows, and the lines stay as one of their own.
  | some start, [] => [s.block start s.size .sequence]
  | pending, b :: rest =>
    if s.isQuiet b.start b.stop then foldQuiet s (some (pending.getD b.start)) rest
    else
      match pending with
      | none => b :: foldQuiet s none rest
      | some start => s.block start b.stop b.kind :: foldQuiet s none rest

def plan (s : Script) : List Block :=
  s.foldQuiet none (s.sweep s.steps s.size 0 0)

end Script

end ScriptAtlas
