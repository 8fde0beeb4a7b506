import Mathlib.Data.Finset.Card
import Mathlib.Data.Finset.Dedup
import ScriptAtlas.Proofs.DependencyGraph

/-!
Which chunk lists have a dependency graph. A store that refuses whatever a graph without cycles cannot hold
takes all chunks and dependencies of a list exactly when the list as a whole describes such a graph: it does
not matter in which order the dependencies come, nor which of them would be the one to close a cycle.
-/

namespace ScriptAtlas

open Relation

/-! ### Relations without cycles -/

/-- No path comes back to where it started. -/
def Acyclic {α : Type} (r : α → α → Prop) : Prop :=
  ∀ a, ¬ TransGen r a a

section Relations

variable {α : Type} {r : α → α → Prop}

theorem acyclic_swap : Acyclic (Function.swap r) ↔ Acyclic r :=
  forall_congr' fun _ => not_congr transGen_swap

/-- A path with one more edge to use avoids this edge, or comes to it and goes on behind it. -/
theorem path_withEdge {a b x y : α} (path : ReflTransGen (fun c d => r c d ∨ c = a ∧ d = b) x y) :
    ReflTransGen r x y ∨ ReflTransGen r x a ∧ ReflTransGen r b y := by
  induction path with
  | refl => exact .inl .refl
  | tail _ last ih =>
      rcases last with old | ⟨rfl, rfl⟩
      · exact ih.imp (·.tail old) (And.imp_right (·.tail old))
      · exact .inr ⟨ih.elim id And.left, .refl⟩

theorem Acyclic.withEdge (acyclic : Acyclic r) {a b : α} (noPath : ¬ ReflTransGen r b a) :
    Acyclic fun c d => r c d ∨ c = a ∧ d = b := by
  intro x cycle
  obtain ⟨y, first, back⟩ := TransGen.head'_iff.mp cycle
  rcases first with old | ⟨rfl, rfl⟩
  · rcases path_withEdge back with avoids | ⟨before, after⟩
    · exact acyclic x (.head' old avoids)
    · exact noPath ((after.tail old).trans before)
  · exact noPath ((path_withEdge back).elim id And.left)

/-- Among finitely many vertices the number of those that lead to a vertex rises along every edge. -/
theorem Acyclic.exists_rank [DecidableEq α] (acyclic : Acyclic r) (vertices : List α)
    (inside : ∀ a b, r a b → a ∈ vertices) : ∃ rank : α → Int, ∀ a b, r a b → rank a < rank b := by
  classical
  let before (b : α) : Finset α := vertices.toFinset.filter fun a => TransGen r a b
  refine ⟨fun b => (before b).card, fun a b edge => ?_⟩
  have grows : before a ⊂ before b := by
    refine Finset.ssubset_iff_of_subset ?_ |>.mpr ⟨a, ?_, ?_⟩
    · intro v member
      obtain ⟨known, path⟩ := Finset.mem_filter.mp member
      exact Finset.mem_filter.mpr ⟨known, path.tail edge⟩
    · exact Finset.mem_filter.mpr ⟨List.mem_toFinset.mpr (inside a b edge), .single edge⟩
    · exact fun member => acyclic a (Finset.mem_filter.mp member).2
  exact Int.ofNat_lt.mpr (Finset.card_lt_card grows)

end Relations

/-! ### Chunk lists that describe a graph without cycles -/

namespace Chunk

/-- Chunks of different numbers that depend on chunks among them, on each once and never on themselves, be it
through others. -/
structure WellLinked (chunks : List Chunk) : Prop where
  distinct : (chunks.map Chunk.id).Nodup
  known : ∀ c ∈ chunks, ∀ d ∈ c.dependencies, d ∈ chunks.map Chunk.id
  different : ∀ c ∈ chunks, c.dependencies.Nodup
  acyclic : Acyclic (DependsOn chunks)

variable {chunks : List Chunk}

theorem WellLinked.exists_rank (linked : WellLinked chunks) : ∃ rank : Int → Int, Orderly rank chunks := by
  obtain ⟨rank, rising⟩ := Acyclic.exists_rank (acyclic_swap.mpr linked.acyclic) (chunks.map Chunk.id)
    (by rintro d _ ⟨c, member, _, needed⟩; exact linked.known c member d needed)
  exact ⟨rank, linked.distinct, linked.known, linked.different,
    fun c member d needed => rising d c.id ⟨c, member, rfl, needed⟩⟩

end Chunk

/-! ### Stores that refuse what they cannot hold -/

/-- A store that takes no vertex twice, and no edge that leaves an unknown vertex, is there already or closes a
cycle. -/
structure ExactGraphStore (σ ε : Type) extends GraphStore σ ε where
  addVertex_known : ∀ g v, vertex g v → ∃ e, addVertex g v = .error e
  addEdge_unknown : ∀ g a b, ¬ vertex g a → ∃ e, addEdge g a b = .error e
  addEdge_known : ∀ g a b, edge g a b → ∃ e, addEdge g a b = .error e
  addEdge_cyclic : ∀ g a b, ReflTransGen (edge g) b a → ∃ e, addEdge g a b = .error e

namespace ExactGraphStore

variable {σ ε : Type} (store : ExactGraphStore σ ε)

theorem addVertices_distinct (chunks : List Chunk) (g h : σ)
    (added : chunks.foldlM (fun g c => store.addVertex g c.id) g = .ok h) :
    (chunks.map Chunk.id).Nodup ∧ ∀ v ∈ chunks.map Chunk.id, ¬ store.vertex g v := by
  induction chunks generalizing g with
  | nil => exact ⟨.nil, by simp⟩
  | cons c rest ih =>
      rw [List.foldlM_cons, bind_eq_ok_iff] at added
      obtain ⟨next, here, later⟩ := added
      have new : ¬ store.vertex g c.id := by
        intro old
        obtain ⟨e, refused⟩ := store.addVertex_known g c.id old
        rw [refused] at here
        cases here
      obtain ⟨other, taken, vertices, _⟩ := store.addVertex_new g c.id new
      obtain rfl : next = other := Except.ok.inj (here.symm.trans taken)
      obtain ⟨distinct, fresh⟩ := ih next later
      simp only [vertices, not_or] at fresh
      rw [List.map_cons, List.nodup_cons, List.forall_mem_cons]
      exact ⟨⟨fun again => (fresh c.id again).2 rfl, distinct⟩, new, fun v member => (fresh v member).1⟩

theorem addEdge_taken (g h : σ) (a b : Int) (target : store.vertex g b) (added : store.addEdge g a b = .ok h) :
    store.vertex g a ∧ ¬ store.edge g a b ∧ ¬ ReflTransGen (store.edge g) b a ∧
      (∀ v, store.vertex h v ↔ store.vertex g v) ∧ ∀ c d, store.edge h c d ↔ store.edge g c d ∨ c = a ∧ d = b := by
  have refuted : ∀ {fault : Prop}, (fault → ∃ e, store.addEdge g a b = .error e) → ¬ fault := by
    intro fault refuses holds
    obtain ⟨e, refused⟩ := refuses holds
    rw [refused] at added
    cases added
  have source : store.vertex g a := not_not.mp (refuted (store.addEdge_unknown g a b))
  have new := refuted (store.addEdge_known g a b)
  have noPath := refuted (store.addEdge_cyclic g a b)
  obtain ⟨other, taken, vertices, edges⟩ := store.addEdge_new g a b source target new noPath
  obtain rfl : h = other := Except.ok.inj (added.symm.trans taken)
  exact ⟨source, new, noPath, vertices, edges⟩

theorem addEdges_taken (edges : List (Int × Int)) (g h : σ) (targets : ∀ e ∈ edges, store.vertex g e.2)
    (acyclic : Acyclic (store.edge g))
    (added : edges.foldlM (fun g e => store.addEdge g e.1 e.2) g = .ok h) :
    edges.Nodup ∧ (∀ e ∈ edges, store.vertex g e.1 ∧ ¬ store.edge g e.1 e.2) ∧
      Acyclic fun a b => store.edge g a b ∨ (a, b) ∈ edges := by
  induction edges generalizing g with
  | nil => exact ⟨.nil, by simp, by simpa using acyclic⟩
  | cons e rest ih =>
      rw [List.foldlM_cons, bind_eq_ok_iff] at added
      obtain ⟨next, here, later⟩ := added
      obtain ⟨target, targets⟩ := List.forall_mem_cons.mp targets
      obtain ⟨source, new, noPath, vertices, held⟩ := store.addEdge_taken g next e.1 e.2 target here
      have acyclicNext : Acyclic (store.edge next) := by
        rw [show store.edge next = _ from funext₂ fun c d => propext (held c d)]
        exact acyclic.withEdge noPath
      obtain ⟨distinct, fresh, acyclicAll⟩ := ih next (fun other member => (vertices _).mpr (targets other member))
        acyclicNext later
      simp only [vertices, held, not_or, not_and] at fresh
      refine ⟨List.nodup_cons.mpr ⟨fun again => (fresh e again).2.2 rfl rfl, distinct⟩, ?_, ?_⟩
      · rw [List.forall_mem_cons]
        exact ⟨⟨source, new⟩, fun other member => ⟨(fresh other member).1, (fresh other member).2.1⟩⟩
      · refine (show (fun a b => store.edge g a b ∨ (a, b) ∈ e :: rest) = _ from ?_) ▸ acyclicAll
        funext a b
        rw [held, List.mem_cons, Prod.ext_iff, or_assoc]

theorem wellLinked_of_build (chunks : List Chunk) (g : σ) (built : store.build chunks = .ok g) :
    Chunk.WellLinked chunks := by
  rw [GraphStore.build_eq_foldlM, bind_eq_ok_iff] at built
  obtain ⟨bare, added, linked⟩ := built
  obtain ⟨distinct, new⟩ := store.addVertices_distinct chunks store.empty bare added
  obtain ⟨other, taken, vertices, held⟩ := store.addVertices chunks store.empty distinct new
  obtain rfl : bare = other := Except.ok.inj (added.symm.trans taken)
  have noEdge : ∀ a b, ¬ store.edge bare a b := fun a b old => store.empty_edge a b ((held a b).mp old)
  have targets : ∀ e ∈ Chunk.edges chunks, store.vertex bare e.2 := by
    rintro ⟨d, id⟩ member
    obtain ⟨c, inside, rfl, _⟩ := Chunk.mem_edges.mp member
    exact (vertices c.id).mpr (.inr (List.mem_map_of_mem inside))
  have start : Acyclic (store.edge bare) := by
    intro a cycle
    obtain ⟨b, first, _⟩ := TransGen.head'_iff.mp cycle
    exact noEdge a b first
  obtain ⟨different, sources, acyclic⟩ := store.addEdges_taken (Chunk.edges chunks) bare g targets start linked
  refine ⟨distinct, ?_, ?_, ?_⟩
  · intro c member d needed
    have source := (sources (d, c.id) (Chunk.mem_edges.mpr ⟨c, member, rfl, needed⟩)).1
    exact ((vertices d).mp source).resolve_left (store.empty_vertex d)
  · intro c member
    exact .of_map _ ((List.nodup_flatMap.mp different).1 c member)
  · simp only [noEdge, false_or, Chunk.mem_edges] at acyclic
    exact acyclic_swap.mp acyclic

theorem build_iff (chunks : List Chunk) : (∃ g, store.build chunks = .ok g) ↔ Chunk.WellLinked chunks := by
  constructor
  · rintro ⟨g, built⟩
    exact store.wellLinked_of_build chunks g built
  · intro linked
    obtain ⟨rank, orderly⟩ := linked.exists_rank
    obtain ⟨g, built, _⟩ := store.build_ok chunks orderly
    exact ⟨g, built⟩

end ExactGraphStore

namespace DependencyGraph

def exactStore : ExactGraphStore DependencyGraph GraphError where
  toGraphStore := store
  addVertex_known := by
    intro g v known
    exact ⟨_, if_pos ((has_eq_true_iff g v).mpr known)⟩
  addEdge_unknown := by
    intro g a b unknown
    refine ⟨_, if_pos ?_⟩
    rw [Bool.not_eq_true', ← Bool.not_eq_true, has_eq_true_iff]
    exact unknown
  addEdge_known := by
    intro g a b held
    cases added : g.addDependency b a with
    | error e => exact ⟨e, added⟩
    | ok h => exact absurd held ((addDependency_eq_ok_iff g h b a).mp added).2.1
  addEdge_cyclic := by
    intro g a b path
    cases added : g.addDependency b a with
    | error e => exact ⟨e, added⟩
    | ok h =>
        have acyclic := ((addDependency_eq_ok_iff g h b a).mp added).2.2.1
        rw [(g.dependsOn_eq_true_iff a b).mpr path] at acyclic
        cases acyclic

theorem build_iff (chunks : List Chunk) : (∃ g, build chunks = .ok g) ↔ Chunk.WellLinked chunks :=
  exactStore.build_iff chunks

/-- The graph of chunks can be built exactly when they have different numbers, name only chunks of the list,
none of them twice, and none depends on itself through any number of others. This holds for arbitrary numbers
and dependencies, and for every store that refuses what a graph without cycles cannot hold. -/
theorem build_succeeds_iff (chunks : List Chunk) :
    ((∃ g, build chunks = .ok g) ↔
      (chunks.map Chunk.id).Nodup ∧
      (∀ c ∈ chunks, ∀ d ∈ c.dependencies, d ∈ chunks.map Chunk.id) ∧
      (∀ c ∈ chunks, c.dependencies.Nodup) ∧ Acyclic (Chunk.DependsOn chunks)) ∧
    (Acyclic (Chunk.DependsOn chunks) → ∀ c ∈ chunks, c.id ∉ c.dependencies) ∧
    ∀ {σ ε : Type} (store : ExactGraphStore σ ε),
      (∃ g, store.build chunks = .ok g) ↔ ∃ g, build chunks = .ok g := by
  refine ⟨(build_iff chunks).trans ⟨?_, ?_⟩, ?_, ?_⟩
  · rintro ⟨distinct, known, different, acyclic⟩
    exact ⟨distinct, known, different, acyclic⟩
  · rintro ⟨distinct, known, different, acyclic⟩
    exact ⟨distinct, known, different, acyclic⟩
  · intro acyclic c member needed
    exact acyclic c.id (.single ⟨c, member, rfl, needed⟩)
  · intro σ ε store
    rw [store.build_iff, build_iff]

example : build [{ id := 7, dependencies := [2] }, { id := 2, dependencies := [7] }] =
    .error (.cyclicDependency 2 7) :=
  rfl

end DependencyGraph

end ScriptAtlas
