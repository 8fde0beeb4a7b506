import Mathlib.Data.List.Nodup
import ScriptAtlas.Proofs.GraphSearch

/-!
When the dependency graph of chunks can be built. The argument is about every store that takes a new
edge unless a path leads back: a rank that rises along the edges keeps such a path away, in whatever
order the edges come. The list of nodes is one of these stores, and it keeps what it is given in order.
-/

namespace ScriptAtlas

/-- A store of directed graphs without cycles: what it holds, and which additions it takes. An edge runs
to the number that needs the other one. -/
structure GraphStore (σ ε : Type) where
  empty : σ
  addVertex : σ → Int → Except ε σ
  addEdge : σ → Int → Int → Except ε σ
  vertex : σ → Int → Prop
  edge : σ → Int → Int → Prop
  empty_vertex : ∀ v, ¬ vertex empty v
  empty_edge : ∀ a b, ¬ edge empty a b
  addVertex_new : ∀ g v, ¬ vertex g v → ∃ h, addVertex g v = .ok h ∧
    (∀ u, vertex h u ↔ vertex g u ∨ u = v) ∧ ∀ a b, edge h a b ↔ edge g a b
  /-- An edge is taken if it joins vertices, is new and closes no cycle. -/
  addEdge_new : ∀ g a b, vertex g a → vertex g b → ¬ edge g a b →
    ¬ Relation.ReflTransGen (edge g) b a → ∃ h, addEdge g a b = .ok h ∧
      (∀ u, vertex h u ↔ vertex g u) ∧ ∀ c d, edge h c d ↔ edge g c d ∨ c = a ∧ d = b

def GraphNode.ofChunk (c : Chunk) : GraphNode :=
  ⟨c.id, c.dependencies⟩

theorem bind_eq_ok_iff {α β ε : Type} (x : Except ε α) (next : α → Except ε β) (y : β) :
    (x >>= next) = .ok y ↔ ∃ a, x = .ok a ∧ next a = .ok y := by
  cases x with
  | error e => simp [bind, Except.bind]
  | ok a => simp [bind, Except.bind]

/-- A check in front of a computation fails, or leaves it to decide. -/
theorem guarded {α ε : Type} {fault : Prop} [Decidable fault] {result : α} (e : ε) (next : Unit → Except ε α) :
    (if fault then throw e >>= next else next ()) = .ok result ↔ ¬ fault ∧ next () = .ok result := by
  split
  · rename_i holds
    simp [holds, bind, Except.bind, throw, throwThe, MonadExceptOf.throw]
  · rename_i absent
    simp [absent]

/-- Chunks of different numbers that depend on chunks among them, on each once and always downward in
rank. -/
structure Chunk.Orderly (rank : Int → Int) (chunks : List Chunk) : Prop where
  distinct : (chunks.map Chunk.id).Nodup
  known : ∀ c ∈ chunks, ∀ d ∈ c.dependencies, d ∈ chunks.map Chunk.id
  different : ∀ c ∈ chunks, c.dependencies.Nodup
  ranked : ∀ c ∈ chunks, ∀ d ∈ c.dependencies, rank d < rank c.id

namespace Chunk

def DependsOn (chunks : List Chunk) (id d : Int) : Prop :=
  ∃ c ∈ chunks, c.id = id ∧ d ∈ c.dependencies

/-- The edges that the dependencies of chunks ask for, in the order in which they are added. -/
def edges (chunks : List Chunk) : List (Int × Int) :=
  chunks.flatMap fun c => c.dependencies.map fun d => (d, c.id)

theorem mem_edges {chunks : List Chunk} {d id : Int} :
    (d, id) ∈ edges chunks ↔ DependsOn chunks id d := by
  simp only [edges, List.mem_flatMap, List.mem_map, Prod.mk.injEq, DependsOn]
  constructor
  · rintro ⟨c, member, _, needed, rfl, rfl⟩
    exact ⟨c, member, rfl, needed⟩
  · rintro ⟨c, member, rfl, needed⟩
    exact ⟨c, member, d, needed, rfl, rfl⟩

namespace Orderly

variable {rank : Int → Int} {chunks : List Chunk}

theorem ends (orderly : Orderly rank chunks) (e : Int × Int) (member : e ∈ edges chunks) :
    e.1 ∈ chunks.map Chunk.id ∧ e.2 ∈ chunks.map Chunk.id := by
  obtain ⟨c, inside, same, needed⟩ := mem_edges.mp member
  exact ⟨orderly.known c inside e.1 needed, List.mem_map.mpr ⟨c, inside, same⟩⟩

theorem rises (orderly : Orderly rank chunks) (e : Int × Int) (member : e ∈ edges chunks) :
    rank e.1 < rank e.2 := by
  obtain ⟨c, inside, same, needed⟩ := mem_edges.mp member
  exact same ▸ orderly.ranked c inside e.1 needed

theorem nodup_edges (orderly : Orderly rank chunks) : (edges chunks).Nodup := by
  refine List.nodup_flatMap.mpr ⟨?_, (List.pairwise_map.mp orderly.distinct).imp ?_⟩
  · intro c member
    exact (orderly.different c member).map fun a b same => (Prod.mk.inj same).1
  · intro c d apart e here there
    obtain ⟨a, _, rfl⟩ := List.mem_map.mp here
    obtain ⟨b, _, same⟩ := List.mem_map.mp there
    exact apart (Prod.mk.inj same).2.symm

end Orderly

end Chunk

namespace GraphStore

variable {σ ε : Type} (store : GraphStore σ ε)

def build (chunks : List Chunk) : Except ε σ := do
  let g ← chunks.foldlM (fun g c => store.addVertex g c.id) store.empty
  chunks.foldlM (fun g c => c.dependencies.foldlM (fun g d => store.addEdge g d c.id) g) g

theorem build_eq_foldlM (chunks : List Chunk) :
    store.build chunks = (do
      let g ← chunks.foldlM (fun g c => store.addVertex g c.id) store.empty
      (Chunk.edges chunks).foldlM (fun g e => store.addEdge g e.1 e.2) g) := by
  have flat : ∀ (rest : List Chunk) (g : σ),
      rest.foldlM (fun g c => c.dependencies.foldlM (fun g d => store.addEdge g d c.id) g) g =
        (Chunk.edges rest).foldlM (fun g e => store.addEdge g e.1 e.2) g := by
    intro rest
    induction rest with
    | nil => exact fun _ => rfl
    | cons c rest ih =>
        intro g
        rw [Chunk.edges, List.flatMap_cons, List.foldlM_append, List.foldlM_map, List.foldlM_cons]
        exact bind_congr ih
  exact bind_congr (flat chunks)

theorem addVertices (chunks : List Chunk) (g : σ) (distinct : (chunks.map Chunk.id).Nodup)
    (new : ∀ v ∈ chunks.map Chunk.id, ¬ store.vertex g v) :
    ∃ h, chunks.foldlM (fun g c => store.addVertex g c.id) g = .ok h ∧
      (∀ v, store.vertex h v ↔ store.vertex g v ∨ v ∈ chunks.map Chunk.id) ∧
      ∀ a b, store.edge h a b ↔ store.edge g a b := by
  induction chunks generalizing g with
  | nil => exact ⟨g, rfl, by simp, by simp⟩
  | cons c rest ih =>
      rw [List.map_cons] at distinct new
      obtain ⟨apart, distinct⟩ := List.nodup_cons.mp distinct
      obtain ⟨here, later⟩ := List.forall_mem_cons.mp new
      obtain ⟨next, added, vertices, edges⟩ := store.addVertex_new g c.id here
      have fresh : ∀ v ∈ rest.map Chunk.id, ¬ store.vertex next v := by
        intro v member present
        rcases (vertices v).mp present with old | rfl
        · exact later v member old
        · exact apart member
      obtain ⟨h, all, verticesAll, edgesAll⟩ := ih next distinct fresh
      refine ⟨h, ?_, ?_, fun a b => (edgesAll a b).trans (edges a b)⟩
      · rw [List.foldlM_cons, added]
        exact all
      · intro v
        rw [verticesAll, vertices, List.map_cons, List.mem_cons, or_assoc]

variable {rank : Int → Int}

theorem rank_le_of_path (g : σ) (rising : ∀ a b, store.edge g a b → rank a < rank b) (a b : Int)
    (path : Relation.ReflTransGen (store.edge g) a b) : rank a ≤ rank b := by
  induction path with
  | refl => exact Int.le_refl _
  | tail _ last ih => exact Int.le_trans ih (Int.le_of_lt (rising _ _ last))

/-- Edges that rise in rank are taken, in whatever order they come. -/
theorem addEdges (edges : List (Int × Int)) (g : σ)
    (known : ∀ e ∈ edges, store.vertex g e.1 ∧ store.vertex g e.2) (different : edges.Nodup)
    (new : ∀ e ∈ edges, ¬ store.edge g e.1 e.2) (lower : ∀ e ∈ edges, rank e.1 < rank e.2)
    (rising : ∀ a b, store.edge g a b → rank a < rank b) :
    ∃ h, edges.foldlM (fun g e => store.addEdge g e.1 e.2) g = .ok h ∧
      (∀ v, store.vertex h v ↔ store.vertex g v) ∧
      ∀ a b, store.edge h a b ↔ store.edge g a b ∨ (a, b) ∈ edges := by
  induction edges generalizing g with
  | nil => exact ⟨g, rfl, by simp, by simp⟩
  | cons e rest ih =>
      obtain ⟨knownHere, knownLater⟩ := List.forall_mem_cons.mp known
      obtain ⟨newHere, newLater⟩ := List.forall_mem_cons.mp new
      obtain ⟨lowerHere, lowerLater⟩ := List.forall_mem_cons.mp lower
      obtain ⟨apart, different⟩ := List.nodup_cons.mp different
      -- Ranks rise along a path, and the new edge would lead back down.
      have noPath : ¬ Relation.ReflTransGen (store.edge g) e.2 e.1 := by
        intro path
        have order := store.rank_le_of_path g rising e.2 e.1 path
        omega
      obtain ⟨next, added, vertices, held⟩ :=
        store.addEdge_new g e.1 e.2 knownHere.1 knownHere.2 newHere noPath
      have fresh : ∀ other ∈ rest, ¬ store.edge next other.1 other.2 := by
        intro other member present
        rcases (held other.1 other.2).mp present with old | same
        · exact newLater other member old
        · exact apart (Prod.ext_iff.mpr same ▸ member)
      have risingNext : ∀ a b, store.edge next a b → rank a < rank b := by
        intro a b present
        rcases (held a b).mp present with old | ⟨rfl, rfl⟩
        · exact rising a b old
        · exact lowerHere
      obtain ⟨h, all, verticesAll, heldAll⟩ := ih next
        (fun other member => (knownLater other member).imp (vertices _).mpr (vertices _).mpr) different fresh
        lowerLater risingNext
      refine ⟨h, ?_, fun v => (verticesAll v).trans (vertices v), ?_⟩
      · rw [List.foldlM_cons, added]
        exact all
      · intro a b
        rw [heldAll, held, List.mem_cons, Prod.ext_iff, or_assoc]

theorem build_ok (chunks : List Chunk) (orderly : Chunk.Orderly rank chunks) :
    ∃ g, store.build chunks = .ok g ∧ (∀ v, store.vertex g v ↔ v ∈ chunks.map Chunk.id) ∧
      ∀ a b, store.edge g a b ↔ ∃ c ∈ chunks, a ∈ c.dependencies ∧ b = c.id := by
  obtain ⟨bare, added, vertices, held⟩ := store.addVertices chunks store.empty orderly.distinct
    fun v _ => store.empty_vertex v
  have present : ∀ v ∈ chunks.map Chunk.id, store.vertex bare v :=
    fun v member => (vertices v).mpr (.inr member)
  have noEdge : ∀ a b, ¬ store.edge bare a b :=
    fun a b old => store.empty_edge a b ((held a b).mp old)
  obtain ⟨g, linked, verticesAll, heldAll⟩ := store.addEdges (Chunk.edges chunks) bare
    (fun e member => (orderly.ends e member).imp (present _) (present _)) orderly.nodup_edges
    (fun e _ => noEdge e.1 e.2) orderly.rises (fun a b old => absurd old (noEdge a b))
  refine ⟨g, ?_, ?_, ?_⟩
  · rw [build_eq_foldlM, added]
    exact linked
  · intro v
    rw [verticesAll, vertices, or_iff_right (store.empty_vertex v)]
  · intro a b
    rw [heldAll, or_iff_right (noEdge a b), Chunk.mem_edges]
    exact exists_congr fun c => and_congr_right fun _ => and_comm.trans (and_congr_right fun _ => eq_comm)

end GraphStore

namespace DependencyGraph

/-! ### The list of nodes as a store -/

theorem has_eq_true_iff (g : DependencyGraph) (id : Int) : g.has id = true ↔ id ∈ g.ids := by
  simp [has, ids]

theorem needs_addChunk (nodes : List GraphNode) (id v : Int) :
    needs ⟨nodes ++ [⟨id, []⟩]⟩ v = needs ⟨nodes⟩ v := by
  rw [needs, needs, GraphNode.nextTo, GraphNode.nextTo, List.find?_append]
  cases nodes.find? fun n => n.id == v with
  | some n => rfl
  | none => by_cases same : id = v <;> simp [same]

def withNeed (g : DependencyGraph) (id dependency : Int) : DependencyGraph :=
  ⟨g.nodes.map fun n => if n.id == id then ⟨n.id, n.next ++ [dependency]⟩ else n⟩

theorem ids_withNeed (g : DependencyGraph) (id dependency : Int) :
    (g.withNeed id dependency).ids = g.ids := by
  rw [ids, ids, withNeed, List.map_map]
  apply List.map_congr_left
  intro n _
  rw [Function.comp_apply]
  split <;> rfl

theorem needs_withNeed (g : DependencyGraph) (id dependency v : Int) (known : id ∈ g.ids) :
    (g.withNeed id dependency).needs v =
      if v = id then g.needs v ++ [dependency] else g.needs v := by
  have keeps : (fun n : GraphNode => n.id == v) ∘
      (fun n => if n.id == id then ⟨n.id, n.next ++ [dependency]⟩ else n) = fun n => n.id == v := by
    funext n
    rw [Function.comp_apply]
    split <;> rfl
  rw [needs, needs, GraphNode.nextTo, GraphNode.nextTo, withNeed, List.find?_map, keeps]
  cases found : g.nodes.find? fun n => n.id == v with
  | none =>
      split
      · rename_i same
        obtain ⟨n, member, here⟩ := List.mem_map.mp known
        exact absurd (by simp [here, same]) (List.find?_eq_none.mp found n member)
      · rfl
  | some n =>
      have here : n.id = v := by simpa using List.find?_some found
      by_cases same : v = id <;> simp [here, same]

theorem addDependency_eq_ok_iff (g h : DependencyGraph) (id d : Int) :
    g.addDependency id d = .ok h ↔
      d ∈ g.ids ∧ d ∉ g.needs id ∧ g.dependsOn d id = false ∧ h = g.withNeed id d := by
  rw [addDependency, ← withNeed]
  split
  · rename_i unknown
    have unknown : d ∉ g.ids := by simpa [has, ids] using unknown
    simp [unknown]
  · rename_i known
    have known : d ∈ g.ids := by simpa [has, ids] using known
    split
    · rename_i repeated
      simp [List.elem_iff.mp repeated]
    · rename_i new
      have new : d ∉ g.needs id := by simpa using new
      split
      · rename_i cyclic
        simp [cyclic]
      · rename_i acyclic
        simp [known, new, acyclic, eq_comm]

def store : GraphStore DependencyGraph GraphError where
  empty := ⟨[]⟩
  addVertex := addChunk
  addEdge := fun g dependency id => g.addDependency id dependency
  vertex := fun g id => id ∈ g.ids
  edge := Edge
  empty_vertex := fun v member => by cases member
  empty_edge := fun a b needed => by cases needed
  addVertex_new := by
    intro g v new
    refine ⟨⟨g.nodes ++ [⟨v, []⟩]⟩, ?_, ?_, ?_⟩
    · rw [addChunk, if_neg]
      rwa [has_eq_true_iff]
    · intro u
      simp [ids]
    · intro a b
      rw [Edge, Edge, needs_addChunk]
  addEdge_new := by
    intro g a b known here new noPath
    have acyclic : g.dependsOn a b = false := by
      rw [← Bool.not_eq_true, dependsOn_eq_true_iff]
      exact noPath
    refine ⟨g.withNeed b a, (addDependency_eq_ok_iff _ _ _ _).mpr ⟨known, new, acyclic, rfl⟩, ?_, ?_⟩
    · intro u
      rw [ids_withNeed]
    · intro c d
      rw [Edge, Edge, needs_withNeed g b a d here]
      split
      · rename_i same
        simp [same]
      · rename_i other
        simp [other]

theorem build_eq_store (chunks : List Chunk) : build chunks = store.build chunks :=
  rfl

/-! ### The nodes of a graph that was built -/

theorem addChunks_eq (chunks : List Chunk) (nodes : List GraphNode) (h : DependencyGraph)
    (distinct : (nodes.map GraphNode.id).Nodup)
    (added : chunks.foldlM (fun (g : DependencyGraph) c => g.addChunk c.id) ⟨nodes⟩ = .ok h) :
    h = ⟨nodes ++ chunks.map fun c => ⟨c.id, []⟩⟩ ∧ h.ids.Nodup := by
  induction chunks generalizing nodes with
  | nil =>
      cases added
      exact ⟨by simp, distinct⟩
  | cons c rest ih =>
      rw [List.foldlM_cons, bind_eq_ok_iff] at added
      obtain ⟨g, here, later⟩ := added
      rw [addChunk] at here
      split at here
      · cases here
      · rename_i new
        cases here
        have new : c.id ∉ nodes.map GraphNode.id := by simpa [has] using new
        obtain ⟨all, distinctAll⟩ := ih (nodes ++ [⟨c.id, []⟩])
          (by simpa [List.nodup_append] using ⟨distinct, by simpa using new⟩) later
        exact ⟨by simpa using all, distinctAll⟩

section Node

variable {before after : List GraphNode} {id : Int}

theorem withNeed_of_split (needed : List Int) (d : Int) (front : id ∉ before.map GraphNode.id)
    (back : id ∉ after.map GraphNode.id) :
    withNeed ⟨before ++ ⟨id, needed⟩ :: after⟩ id d = ⟨before ++ ⟨id, needed ++ [d]⟩ :: after⟩ := by
  have others : ∀ nodes : List GraphNode, id ∉ nodes.map GraphNode.id →
      (nodes.map fun n => if n.id = id then ⟨n.id, n.next ++ [d]⟩ else n) = nodes := by
    intro nodes absent
    rw [List.map_congr_left (g := fun n => n), List.map_id']
    intro n member
    rw [if_neg]
    exact fun same => absent (List.mem_map.mpr ⟨n, member, same⟩)
  simp [withNeed, others before front, others after back]

theorem addDependencies_eq (deps needed : List Int) (h : DependencyGraph)
    (front : id ∉ before.map GraphNode.id) (back : id ∉ after.map GraphNode.id)
    (added : deps.foldlM (fun (g : DependencyGraph) d => g.addDependency id d)
      ⟨before ++ ⟨id, needed⟩ :: after⟩ = .ok h) : h = ⟨before ++ ⟨id, needed ++ deps⟩ :: after⟩ := by
  induction deps generalizing needed with
  | nil =>
      cases added
      simp
  | cons d rest ih =>
      rw [List.foldlM_cons, bind_eq_ok_iff] at added
      obtain ⟨g, here, later⟩ := added
      obtain ⟨_, _, _, rfl⟩ := (addDependency_eq_ok_iff _ _ _ _).mp here
      rw [withNeed_of_split needed d front back] at later
      simpa using ih (needed ++ [d]) later

end Node

theorem addAllDependencies_eq (done rest : List Chunk) (h : DependencyGraph)
    (distinct : ((done ++ rest).map Chunk.id).Nodup)
    (added : rest.foldlM (fun g c => c.dependencies.foldlM (fun (g : DependencyGraph) d =>
      g.addDependency c.id d) g)
      ⟨done.map GraphNode.ofChunk ++ rest.map fun c => ⟨c.id, []⟩⟩ = .ok h) :
    h = ⟨(done ++ rest).map GraphNode.ofChunk⟩ := by
  induction rest generalizing done with
  | nil =>
      cases added
      simp
  | cons c rest ih =>
      have ids := distinct
      rw [List.map_append, List.map_cons] at ids
      obtain ⟨_, later, apart⟩ := List.nodup_append.mp ids
      have front : c.id ∉ (done.map GraphNode.ofChunk).map GraphNode.id := by
        rw [List.map_map]
        exact fun old => apart c.id old c.id List.mem_cons_self rfl
      have back : c.id ∉ (rest.map fun c => GraphNode.mk c.id []).map GraphNode.id := by
        rw [List.map_map]
        exact (List.nodup_cons.mp later).1
      rw [List.foldlM_cons, bind_eq_ok_iff] at added
      obtain ⟨g, here, later⟩ := added
      rw [List.map_cons] at here
      rw [addDependencies_eq c.dependencies [] g front back here] at later
      simpa using ih (done ++ [c]) (by simpa using distinct) (by simpa [GraphNode.ofChunk] using later)

/-- A graph that was built has the chunks as its nodes, all in the order in which they came. -/
theorem build_eq (chunks : List Chunk) (g : DependencyGraph) (built : build chunks = .ok g) :
    g = ⟨chunks.map GraphNode.ofChunk⟩ := by
  rw [build, bind_eq_ok_iff] at built
  obtain ⟨bare, added, linked⟩ := built
  obtain ⟨rfl, distinct⟩ := addChunks_eq chunks [] bare .nil added
  refine addAllDependencies_eq [] chunks g ?_ linked
  simpa [ids, Function.comp_def] using distinct

theorem build_eq_ok (rank : Int → Int) (chunks : List Chunk) (orderly : Chunk.Orderly rank chunks) :
    build chunks = .ok ⟨chunks.map GraphNode.ofChunk⟩ := by
  obtain ⟨g, built, _⟩ := store.build_ok chunks orderly
  rw [← build_eq_store] at built
  rw [built, build_eq chunks g built]

end DependencyGraph

end ScriptAtlas
