import Mathlib.Data.List.Sort
import ScriptAtlas.Proofs.AcyclicGraph
import ScriptAtlas.Proofs.ReadingOrder

/-!
What a dependency graph answers. Any store of graphs that gives out its two maps is enough, in whatever order they
list the vertices: once the graph of a chunk list is built, the reading order exists and keeps to the
dependencies, and each list that is made of the maps holds exactly the numbers that the dependencies of the chunks
say: those directly needed, those that directly need one, and those that need it through any number of others.
-/

namespace ScriptAtlas

open Relation

/-- Numbers that ascend without repeats and are exactly those with a property. -/
def Lists (ids : List Int) (property : Int → Prop) : Prop :=
  ids.Pairwise (· < ·) ∧ ∀ id, id ∈ ids ↔ property id

/-- A map holds every vertex once, and next to it each vertex that it is joined to, once. -/
structure GraphNode.MapOf (nodes : List GraphNode) (vertex : Int → Prop) (joined : Int → Int → Prop) : Prop where
  distinct : (nodes.map GraphNode.id).Nodup
  covers : ∀ id, id ∈ nodes.map GraphNode.id ↔ vertex id
  different : ∀ n ∈ nodes, n.next.Nodup
  exact : ∀ n ∈ nodes, ∀ id, id ∈ n.next ↔ joined n.id id

/-- A store of graphs without cycles that gives out what it holds as two maps. -/
structure GraphLibrary (σ ε : Type) extends ExactGraphStore σ ε where
  maps : σ → GraphMaps
  predecessors_exact : ∀ chunks g, toGraphStore.build chunks = .ok g →
    GraphNode.MapOf (maps g).predecessors (vertex g) fun id d => edge g d id
  successors_exact : ∀ chunks g, toGraphStore.build chunks = .ok g →
    GraphNode.MapOf (maps g).successors (vertex g) (edge g)

namespace GraphNode

theorem sortIds_lists {ids : List Int} {property : Int → Prop} (distinct : ids.Nodup)
    (members : ∀ id, id ∈ ids ↔ property id) : Lists (sortIds ids) property := by
  have perm := sortIds_perm ids
  have ordered : (sortIds ids).Pairwise (· ≤ ·) := List.pairwise_mergeSort' (· ≤ ·) ids
  have apart : (sortIds ids).Pairwise (· ≠ ·) := perm.nodup_iff.mpr distinct
  exact ⟨(ordered.and apart).imp Int.lt_iff_le_and_ne.mpr, fun id => perm.mem_iff.trans (members id)⟩

namespace MapOf

variable {nodes : List GraphNode} {vertex : Int → Prop} {joined : Int → Int → Prop}
  (map : MapOf nodes vertex joined)

include map

theorem find_vertex {id : Int} (known : vertex id) :
    ∃ n ∈ nodes, n.id = id ∧ nodes.find? (fun n => n.id == id) = some n := by
  obtain ⟨n, member, same⟩ := List.mem_map.mp ((map.covers id).mpr known)
  have some_node : (nodes.find? fun n => n.id == id).isSome :=
    List.find?_isSome.mpr ⟨n, member, beq_iff_eq.mpr same⟩
  obtain ⟨n, found⟩ := Option.isSome_iff_exists.mp some_node
  exact ⟨n, List.mem_of_find?_eq_some found, by simpa using List.find?_some found, found⟩

theorem find_unknown {id : Int} (unknown : ¬ vertex id) : nodes.find? (fun n => n.id == id) = none := by
  refine List.find?_eq_none.mpr fun n member same => unknown ?_
  exact (map.covers id).mp (List.mem_map.mpr ⟨n, member, by simpa using same⟩)

theorem neighbours_vertex {id : Int} (known : vertex id) :
    ∃ ids, neighbours nodes id = .ok ids ∧ Lists ids (joined id) := by
  obtain ⟨n, member, rfl, found⟩ := map.find_vertex known
  exact ⟨sortIds n.next, by rw [neighbours, found], sortIds_lists (map.different n member) (map.exact n member)⟩

theorem neighbours_unknown {id : Int} (unknown : ¬ vertex id) :
    neighbours nodes id = .error (.unknownChunk id) := by
  rw [neighbours, map.find_unknown unknown]

theorem neighbours_holds_iff (inside : ∀ a b, joined a b → vertex a) (id other : Int) :
    (∃ ids, neighbours nodes id = .ok ids ∧ other ∈ ids) ↔ joined id other := by
  by_cases known : vertex id
  · obtain ⟨ids, answer, -, members⟩ := map.neighbours_vertex known
    simp [answer, members]
  · simpa [map.neighbours_unknown known] using fun joins => known (inside id other joins)

theorem nextTo_vertex {id : Int} (known : vertex id) :
    (nextTo nodes id).Nodup ∧ ∀ other, other ∈ nextTo nodes id ↔ joined id other := by
  obtain ⟨n, member, rfl, found⟩ := map.find_vertex known
  rw [nextTo, found]
  exact ⟨map.different n member, map.exact n member⟩

theorem nextTo_unknown {id : Int} (unknown : ¬ vertex id) : nextTo nodes id = [] := by
  rw [nextTo, map.find_unknown unknown]
  rfl

theorem nextTo_nodup (id : Int) : (nextTo nodes id).Nodup := by
  by_cases known : vertex id
  · exact (map.nextTo_vertex known).1
  · rw [map.nextTo_unknown known]
    exact .nil

theorem mem_nextTo_iff (inside : ∀ a b, joined a b → vertex a ∧ vertex b) (id other : Int) :
    other ∈ nextTo nodes id ↔ joined id other := by
  by_cases known : vertex id
  · exact (map.nextTo_vertex known).2 other
  · rw [map.nextTo_unknown known]
    exact iff_of_false List.not_mem_nil fun joins => known (inside id other joins).1

theorem reached_vertex (inside : ∀ a b, joined a b → vertex a ∧ vertex b) {id : Int} (known : vertex id) :
    ∃ ids, reached nodes id = .ok ids ∧ Lists ids fun other => other ≠ id ∧ TransGen joined id other := by
  have leads : ∀ a, ∀ b ∈ nextTo nodes a, b ∈ nodes.map GraphNode.id :=
    fun a b next => (map.covers b).mpr (inside a b ((map.mem_nextTo_iff inside a b).mp next)).2
  have start := (map.covers id).mpr known
  have steps : nodes.length = (nodes.map GraphNode.id).length := List.length_map _ |>.symm
  have found := mem_breadthFirst_iff map.nextTo_nodup leads id
  have once := breadthFirst_nodup map.nextTo_nodup leads nodes.length
    (Searching.start start)
  have joins : (fun a b => b ∈ nextTo nodes a) = joined :=
    funext₂ fun a b => propext (map.mem_nextTo_iff inside a b)
  refine ⟨_, if_pos ?_, sortIds_lists (once.filter _) fun other => ?_⟩
  · obtain ⟨n, member, same⟩ := List.mem_map.mp start
    exact List.any_eq_true.mpr ⟨n, member, beq_iff_eq.mpr same⟩
  · rw [List.mem_filter, steps, found other start, joins, bne_iff_ne, and_comm]
    refine and_congr_right fun apart => ?_
    rw [reflTransGen_iff_eq_or_transGen, or_iff_right apart]

theorem reached_unknown {id : Int} (unknown : ¬ vertex id) : reached nodes id = .error (.unknownStart id) := by
  refine if_neg fun present => unknown ?_
  obtain ⟨n, member, same⟩ := List.any_eq_true.mp present
  exact (map.covers id).mp (List.mem_map.mpr ⟨n, member, by simpa using same⟩)

end MapOf

end GraphNode

namespace GraphLibrary

/-! ### The reading order of a map -/

/-- A map of what each vertex needs, as chunks. -/
def asChunks (nodes : List GraphNode) : List Chunk :=
  nodes.map fun n => { id := n.id, dependencies := n.next }

theorem asChunks_nodes (nodes : List GraphNode) : (asChunks nodes).map GraphNode.ofChunk = nodes := by
  rw [asChunks, List.map_map]
  exact List.map_id' nodes

theorem asChunks_ids (nodes : List GraphNode) : (asChunks nodes).map Chunk.id = nodes.map GraphNode.id := by
  rw [asChunks, List.map_map]
  rfl

theorem order_exact {rank : Int → Int} {chunks : List Chunk} (orderly : Chunk.Orderly rank chunks)
    {nodes : List GraphNode}
    (map : GraphNode.MapOf nodes (· ∈ chunks.map Chunk.id) fun id d => Chunk.DependsOn chunks id d) :
    ∃ ids, GraphNode.order nodes = .ok ids ∧ ids.Perm (chunks.map Chunk.id) ∧
      ∀ c d, Chunk.DependsOn chunks c d → [d, c].Sublist ids := by
  have described : Chunk.Orderly rank (asChunks nodes) := by
    refine ⟨asChunks_ids nodes ▸ map.distinct, ?_, ?_, ?_⟩
    all_goals
      intro c member
      obtain ⟨n, inside, rfl⟩ := List.mem_map.mp member
    · intro d needed
      obtain ⟨c, here, _, depends⟩ := (map.exact n inside d).mp needed
      rw [asChunks_ids, map.covers]
      exact orderly.known c here d depends
    · exact map.different n inside
    · intro d needed
      obtain ⟨c, here, same, depends⟩ := (map.exact n inside d).mp needed
      exact same ▸ orderly.ranked c here d depends
  obtain ⟨ids, read, perm, follows⟩ := DependencyGraph.order_follows rank (asChunks nodes) described
  rw [asChunks_nodes] at read
  rw [asChunks_ids] at perm
  refine ⟨ids, read, perm.trans ?_, ?_⟩
  · exact (List.perm_ext_iff_of_nodup map.distinct orderly.distinct).mpr map.covers
  · intro c d depends
    have known : c ∈ chunks.map Chunk.id := by
      obtain ⟨user, member, rfl, _⟩ := depends
      exact List.mem_map_of_mem member
    obtain ⟨n, inside, rfl⟩ := List.mem_map.mp ((map.covers c).mpr known)
    exact follows _ (List.mem_map_of_mem inside) d ((map.exact n inside d).mpr depends)

/-! ### The maps of a graph of chunks -/

variable {σ ε : Type} (library : GraphLibrary σ ε)

theorem maps_exact {chunks : List Chunk} {g : σ} (built : library.build chunks = .ok g) :
    GraphNode.MapOf (library.maps g).predecessors (· ∈ chunks.map Chunk.id) (Chunk.DependsOn chunks) ∧
      GraphNode.MapOf (library.maps g).successors (· ∈ chunks.map Chunk.id)
        fun d id => Chunk.DependsOn chunks id d := by
  obtain ⟨rank, orderly⟩ := (library.wellLinked_of_build chunks g built).exists_rank
  obtain ⟨other, same, vertices, edges⟩ := library.build_ok chunks orderly
  obtain rfl : g = other := Except.ok.inj (built.symm.trans same)
  have vertex : library.vertex g = (· ∈ chunks.map Chunk.id) := funext fun v => propext (vertices v)
  have edge : library.edge g = fun d id => Chunk.DependsOn chunks id d := by
    funext d id
    rw [edges, Chunk.DependsOn]
    exact propext (exists_congr fun c => and_congr_right fun _ => and_comm.trans (and_congr_left fun _ => eq_comm))
  have before := library.predecessors_exact chunks g built
  have behind := library.successors_exact chunks g built
  rw [vertex, edge] at before behind
  exact ⟨before, behind⟩

end GraphLibrary

namespace DependencyGraph

/-! ### The list of nodes as a library -/

theorem ids_nodup {chunks : List Chunk} (linked : Chunk.WellLinked chunks) :
    (ids ⟨chunks.map GraphNode.ofChunk⟩).Nodup := by
  rw [ids, ofChunk_ids]
  exact linked.distinct

theorem mem_neededBy_iff {g : DependencyGraph} (distinct : g.ids.Nodup) (id d : Int) :
    id ∈ g.neededBy d ↔ d ∈ g.needs id := by
  constructor
  · intro user
    obtain ⟨n, chosen, rfl⟩ := List.mem_map.mp user
    obtain ⟨member, needed⟩ := List.mem_filter.mp chosen
    rw [needs_of_mem distinct member]
    exact List.elem_iff.mp needed
  · intro needed
    rw [needs, GraphNode.nextTo] at needed
    cases found : g.nodes.find? fun n => n.id == id with
    | none =>
        rw [found] at needed
        cases needed
    | some n =>
        rw [found] at needed
        have same : n.id = id := by simpa using List.find?_some found
        exact List.mem_map.mpr ⟨n,
          List.mem_filter.mpr ⟨List.mem_of_find?_eq_some found, List.elem_iff.mpr needed⟩, same⟩

def library : GraphLibrary DependencyGraph GraphError where
  toExactGraphStore := exactStore
  maps := maps
  predecessors_exact := by
    intro chunks g built
    have linked := exactStore.wellLinked_of_build chunks g built
    obtain rfl : g = ⟨chunks.map GraphNode.ofChunk⟩ := build_eq chunks g built
    refine ⟨ids_nodup linked, fun _ => Iff.rfl, ?_, ?_⟩
    · intro n member
      obtain ⟨c, inside, rfl⟩ := List.mem_map.mp member
      exact linked.different c inside
    · intro n member d
      have same := needs_of_mem (ids_nodup linked) member
      exact iff_of_eq (congrArg (d ∈ ·) same.symm)
  successors_exact := by
    intro chunks g built
    have linked := exactStore.wellLinked_of_build chunks g built
    obtain rfl : g = ⟨chunks.map GraphNode.ofChunk⟩ := build_eq chunks g built
    have distinct := ids_nodup linked
    have same : ∀ g : DependencyGraph, g.maps.successors.map GraphNode.id = g.ids := by
      intro g
      rw [maps, List.map_map]
      rfl
    refine ⟨same _ ▸ distinct, fun id => same _ ▸ Iff.rfl, ?_, ?_⟩
    · intro n member
      obtain ⟨m, -, rfl⟩ := List.mem_map.mp member
      exact distinct.sublist (List.filter_sublist.map GraphNode.id)
    · intro n member id
      obtain ⟨m, -, rfl⟩ := List.mem_map.mp member
      exact mem_neededBy_iff distinct id m.id

/-- Whatever chunks a graph was built from, its reading order names each of them once and after everything it
depends on. What it lists for a chunk is, in ascending order, exactly what this chunk directly depends on, what
directly depends on it, and what else depends on it through one or more steps; the first two lists are inverse
to each other. About other numbers nothing is answered. -/
theorem queries_exact {σ ε : Type} (library : GraphLibrary σ ε) (chunks : List Chunk) (g : σ)
    (built : library.build chunks = .ok g) :
    (∃ ids, (library.maps g).order = .ok ids ∧ ids.Perm (chunks.map Chunk.id) ∧
      ∀ c d, Chunk.DependsOn chunks c d → [d, c].Sublist ids) ∧
    (∀ id ∈ chunks.map Chunk.id, ∃ needed users affected : List Int,
      (library.maps g).dependencies id = .ok needed ∧ Lists needed (fun d => Chunk.DependsOn chunks id d) ∧
      (library.maps g).dependents id = .ok users ∧ Lists users (fun c => Chunk.DependsOn chunks c id) ∧
      (library.maps g).impact id = .ok affected ∧
        Lists affected fun c => c ≠ id ∧ TransGen (Chunk.DependsOn chunks) c id) ∧
    (∀ c d, (∃ needed, (library.maps g).dependencies c = .ok needed ∧ d ∈ needed) ↔
      ∃ users, (library.maps g).dependents d = .ok users ∧ c ∈ users) ∧
    ∀ id, id ∉ chunks.map Chunk.id → (library.maps g).dependencies id = .error (.unknownChunk id) ∧
      (library.maps g).dependents id = .error (.unknownChunk id) ∧
      (library.maps g).impact id = .error (.unknownStart id) := by
  have linked := library.wellLinked_of_build chunks g built
  obtain ⟨rank, orderly⟩ := linked.exists_rank
  obtain ⟨before, behind⟩ := library.maps_exact built
  have ends : ∀ c d, Chunk.DependsOn chunks c d → c ∈ chunks.map Chunk.id ∧ d ∈ chunks.map Chunk.id := by
    rintro c d ⟨user, member, rfl, needed⟩
    exact ⟨List.mem_map_of_mem member, linked.known user member d needed⟩
  refine ⟨GraphLibrary.order_exact orderly before, ?_, ?_, ?_⟩
  · intro id known
    obtain ⟨needed, given, listed⟩ := before.neighbours_vertex known
    obtain ⟨users, givenUsers, listedUsers⟩ := behind.neighbours_vertex known
    obtain ⟨affected, found, listedAffected⟩ := behind.reached_vertex (fun d c uses => (ends c d uses).symm) known
    simp only [← transGen_swap (r := Chunk.DependsOn chunks)]
    exact ⟨needed, users, affected, given, listed, givenUsers, listedUsers, found, listedAffected⟩
  · intro c d
    exact (before.neighbours_holds_iff (fun a b uses => (ends a b uses).1) c d).trans
      (behind.neighbours_holds_iff (fun a b uses => (ends b a uses).2) d c).symm
  · intro id unknown
    exact ⟨before.neighbours_unknown unknown, behind.neighbours_unknown unknown, behind.reached_unknown unknown⟩

/-- The last chunk of a list is needed by the first, directly and through the second. -/
theorem queries_exact_diamond :
    ∃ g affected,
      build [{ id := 4, dependencies := [7, 2] }, { id := 2, dependencies := [7] }, { id := 7 }] = .ok g ∧
      g.impact 7 = .ok affected ∧ 4 ∈ affected ∧ 2 ∈ affected ∧ 7 ∉ affected := by
  obtain ⟨_, listed, _⟩ := queries_exact library
    [{ id := 4, dependencies := [7, 2] }, { id := 2, dependencies := [7] }, { id := 7 }] _ rfl
  obtain ⟨_, _, affected, _, _, _, _, answered, _, members⟩ := listed 7 (by decide)
  refine ⟨_, affected, rfl, answered, (members 4).mpr ⟨by decide, .single ?_⟩,
    (members 2).mpr ⟨by decide, .single ?_⟩, fun itself => ((members 7).mp itself).1 rfl⟩
  · exact ⟨_, List.mem_cons_self, rfl, by decide⟩
  · exact ⟨_, List.mem_cons_of_mem _ List.mem_cons_self, rfl, by decide⟩

end DependencyGraph

end ScriptAtlas
