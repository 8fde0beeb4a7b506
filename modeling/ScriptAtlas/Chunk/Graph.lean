import ScriptAtlas.Chunk.Basic

/-!
The dependency graph of chunks. It refuses unknown chunks, repeated edges and cycles, and answers what
a chunk needs, what needs it, and in which order chunks can be read. The answers are read off two maps, of
what each chunk depends on and of what depends on it.
-/

namespace ScriptAtlas

/-- A chunk and the chunks next to it along one direction of the edges. -/
structure GraphNode where
  id : Int
  next : List Int
  deriving DecidableEq, Repr

structure DependencyGraph where
  nodes : List GraphNode
  deriving DecidableEq, Repr

inductive GraphError where
  | repeatedChunk (id : Int)
  | unknownDependency (id dependency : Int)
  | repeatedDependency (id dependency : Int)
  | cyclicDependency (id dependency : Int)
  | unknownChunk (id : Int)
  | unknownStart (id : Int)
  | cyclicGraph
  deriving DecidableEq, Repr

def GraphError.message : GraphError → Text
  | repeatedChunk id => "add chunk " ++ Text.ofInt id ++ ": vertex already exists"
  | unknownDependency id dependency =>
    "link chunk " ++ Text.ofInt id ++ " to " ++ Text.ofInt dependency ++ ": source vertex " ++
      Text.ofInt dependency ++ ": vertex not found"
  | repeatedDependency id dependency =>
    "link chunk " ++ Text.ofInt id ++ " to " ++ Text.ofInt dependency ++ ": edge already exists"
  | cyclicDependency id dependency =>
    "link chunk " ++ Text.ofInt id ++ " to " ++ Text.ofInt dependency ++
      ": edge would create a cycle"
  | unknownChunk id => "chunk " ++ Text.ofInt id ++ ": vertex not found"
  | unknownStart id =>
    "chunk " ++ Text.ofInt id ++ ": could not find start vertex with hash " ++ Text.ofInt id
  | cyclicGraph => "order chunks: topological sort cannot be computed on graph with cycles"

namespace GraphNode

/-- What stands next to a chunk; nothing for an unknown one. -/
def nextTo (nodes : List GraphNode) (id : Int) : List Int :=
  ((nodes.find? fun n => n.id == id).map next).getD []

end GraphNode

namespace DependencyGraph

def ids (g : DependencyGraph) : List Int :=
  g.nodes.map GraphNode.id

def has (g : DependencyGraph) (id : Int) : Bool :=
  g.nodes.any fun n => n.id == id

def needs (g : DependencyGraph) (id : Int) : List Int :=
  GraphNode.nextTo g.nodes id

def edgeCount (g : DependencyGraph) : Nat :=
  g.nodes.foldr (fun n sum => n.next.length + sum) 0

/-- Everything reached from the chunks still to visit, within a number of steps. -/
def visit (next : Int → List Int) : Nat → List Int → List Int → List Int
  | 0, _, visited => visited
  | _ + 1, [], visited => visited
  | steps + 1, id :: rest, visited =>
    if visited.elem id then visit next steps rest visited
    else visit next steps (next id ++ rest) (id :: visited)

/-- Whether a chunk depends on another through any number of steps, or is the same. -/
def dependsOn (g : DependencyGraph) (id other : Int) : Bool :=
  -- Each step takes one chunk from those to visit, and each dependency adds one to them at most once.
  (visit g.needs (g.edgeCount + g.nodes.length + 2) [id] []).elem other

def addChunk (g : DependencyGraph) (id : Int) : Except GraphError DependencyGraph :=
  if g.has id then .error (.repeatedChunk id) else .ok ⟨g.nodes ++ [⟨id, []⟩]⟩

def addDependency (g : DependencyGraph) (id dependency : Int) : Except GraphError DependencyGraph :=
  if !g.has dependency then .error (.unknownDependency id dependency)
  else if (g.needs id).elem dependency then .error (.repeatedDependency id dependency)
  else if g.dependsOn dependency id then .error (.cyclicDependency id dependency)
  else .ok ⟨g.nodes.map fun n => if n.id == id then ⟨n.id, n.next ++ [dependency]⟩ else n⟩

def build (chunks : List Chunk) : Except GraphError DependencyGraph := do
  -- All chunks come first: a dependency may stand before the chunk that it names.
  let g ← chunks.foldlM (fun (g : DependencyGraph) c => g.addChunk c.id) ⟨[]⟩
  chunks.foldlM (fun g c => c.dependencies.foldlM (fun (g : DependencyGraph) d =>
    g.addDependency c.id d) g) g

end DependencyGraph

namespace GraphNode

def sortIds (ids : List Int) : List Int :=
  ids.mergeSort fun a b => a ≤ b

/-- The chunks without open dependencies and the others. -/
def splitReady (nodes : List GraphNode) : List Int × List GraphNode :=
  (sortIds ((nodes.filter fun n => n.next.isEmpty).map id),
    nodes.filter fun n => !n.next.isEmpty)

/-- Takes chunks from the front of the queue; chunks that thereby become ready join its end in
ascending order. -/
def orderFrom : Nat → List Int → List GraphNode → List Int
  | 0, _, _ => []
  | _ + 1, [], _ => []
  | steps + 1, id :: queue, waiting =>
    let (ready, waiting) := splitReady (waiting.map fun n => { n with next := n.next.filter (· != id) })
    id :: orderFrom steps (queue ++ ready) waiting

def order (nodes : List GraphNode) : Except GraphError (List Int) :=
  let (ready, waiting) := splitReady nodes
  let ids := orderFrom nodes.length ready waiting
  -- Chunks on a cycle are never ready and would be missing.
  if ids.length == nodes.length then .ok ids else .error .cyclicGraph

def neighbours (nodes : List GraphNode) (id : Int) : Except GraphError (List Int) :=
  match nodes.find? fun n => n.id == id with
  | some n => .ok (sortIds n.next)
  | none => .error (.unknownChunk id)

/-- Takes chunks from the front of the queue; what stands next to them joins its end unless it was in the queue
before. -/
def breadthFirst (next : Int → List Int) : Nat → List Int → List Int → List Int
  | 0, _, _ => []
  | _ + 1, [], _ => []
  | steps + 1, id :: queue, seen =>
    let new := (next id).filter fun other => !seen.elem other
    id :: breadthFirst next steps (queue ++ new) (seen ++ new)

/-- What a chunk leads to through any number of steps, in ascending order. -/
def reached (nodes : List GraphNode) (id : Int) : Except GraphError (List Int) :=
  if nodes.any fun n => n.id == id then
    .ok (sortIds ((breadthFirst (nextTo nodes) nodes.length [id] [id]).filter (· != id)))
  else .error (.unknownStart id)

end GraphNode

/-- A graph as its two maps: what each chunk depends on, and what depends on it. -/
structure GraphMaps where
  predecessors : List GraphNode
  successors : List GraphNode

namespace GraphMaps

def order (m : GraphMaps) : Except GraphError (List Int) :=
  GraphNode.order m.predecessors

def dependencies (m : GraphMaps) (id : Int) : Except GraphError (List Int) :=
  GraphNode.neighbours m.predecessors id

def dependents (m : GraphMaps) (id : Int) : Except GraphError (List Int) :=
  GraphNode.neighbours m.successors id

/-- What depends on a chunk through any number of steps, in ascending order. -/
def impact (m : GraphMaps) (id : Int) : Except GraphError (List Int) :=
  GraphNode.reached m.successors id

end GraphMaps

namespace DependencyGraph

def neededBy (g : DependencyGraph) (id : Int) : List Int :=
  (g.nodes.filter fun n => n.next.elem id).map GraphNode.id

def maps (g : DependencyGraph) : GraphMaps :=
  ⟨g.nodes, g.nodes.map fun n => ⟨n.id, g.neededBy n.id⟩⟩

def order (g : DependencyGraph) : Except GraphError (List Int) :=
  g.maps.order

def dependencies (g : DependencyGraph) (id : Int) : Except GraphError (List Int) :=
  g.maps.dependencies id

def dependents (g : DependencyGraph) (id : Int) : Except GraphError (List Int) :=
  g.maps.dependents id

def impact (g : DependencyGraph) (id : Int) : Except GraphError (List Int) :=
  g.maps.impact id

end DependencyGraph

end ScriptAtlas
