import ScriptAtlas.Chunk.Assembly

/-!
Links between chunks: parts of one block continue each other, and a chunk depends on earlier chunks
that declare the variables it uses.
-/

namespace ScriptAtlas

namespace Chunk

def numberFrom : Int → List Chunk → List Chunk
  | _, [] => []
  | id, c :: rest => { c with id } :: numberFrom (id + 1) rest

def isContinuedBy (c next : Chunk) : Bool :=
  match c.part, next.part with
  -- The next ordinal is a 64-bit sum.
  | some p, some q => p.sameParent q && wrap64 q.ordinal == wrap64 (p.ordinal + 1)
  | _, _ => false

def withNeighbours (previous : Option Chunk) (c : Chunk) (next : Option Chunk) : Chunk :=
  { c with
    continuesFrom :=
      match previous with
      | some p => if p.isContinuedBy c then p.id else c.continuesFrom
      | none => c.continuesFrom
    continuesIn :=
      match next with
      | some n => if c.isContinuedBy n then n.id else c.continuesIn
      | none => c.continuesIn }

def linkContinuationsAfter (previous : Option Chunk) : List Chunk → List Chunk
  | [] => []
  | c :: rest => withNeighbours previous c rest.head? :: linkContinuationsAfter (some c) rest

def linkContinuations (chunks : List Chunk) : List Chunk :=
  linkContinuationsAfter none chunks

/-- Adds a number to an ascending list unless it is there. -/
def insertAscending (n : Int) : List Int → List Int
  | [] => [n]
  | m :: rest => if n < m then n :: m :: rest else if n == m then m :: rest else
      m :: insertAscending n rest

/-- The declarations of variables seen so far: upper-cased name and declaring chunk. -/
abbrev Declarations := List (Text × Int)

/-- The chunks that declare a variable which the chunk uses, and the chunk that it continues. -/
def dependenciesOn (declared : Declarations) (c : Chunk) : List Int :=
  let users := c.used.flatMap fun v =>
    (declared.filter fun (name, _) => name == v.upper).map Prod.snd
  let ids := if 0 < c.continuesFrom && c.continuesFrom < c.id then users ++ [c.continuesFrom]
    else users
  ids.foldl (fun sorted id => insertAscending id sorted) []

def linkDependenciesFrom (declared : Declarations) : List Chunk → List Chunk
  | [] => []
  | c :: rest =>
    -- What the chunk declares itself becomes known behind it only, so dependencies point backward.
    { c with dependencies := c.dependenciesOn declared } ::
      linkDependenciesFrom (declared ++ c.declared.map fun v => (v.upper, c.id)) rest

def linkDependencies (chunks : List Chunk) : List Chunk :=
  linkDependenciesFrom [] chunks

end Chunk

end ScriptAtlas
