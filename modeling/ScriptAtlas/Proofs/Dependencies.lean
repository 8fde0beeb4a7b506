import ScriptAtlas.Proofs.Continuation
import ScriptAtlas.Proofs.DependencyGraph

/-!
The chunks of a script are a well-formed dependency structure: each passes its own check, relies on
earlier chunks only and on each of them once, and the graph of all of them can be built.
-/

namespace ScriptAtlas

namespace Chunk

/-! ### Ascending lists of dependencies -/

theorem mem_insertAscending (n m : Int) (sorted : List Int) :
    m ∈ insertAscending n sorted ↔ m = n ∨ m ∈ sorted := by
  induction sorted with
  | nil => simp [insertAscending]
  | cons first rest ih =>
      rw [insertAscending]
      split
      · simp
      · split
        · rename_i same
          have same : n = first := by simpa using same
          simp [same]
        · rw [List.mem_cons, ih, List.mem_cons, or_left_comm]

theorem insertAscending_ascends (n : Int) (sorted : List Int) (ascends : sorted.Pairwise (· < ·)) :
    (insertAscending n sorted).Pairwise (· < ·) := by
  induction sorted with
  | nil => simp [insertAscending]
  | cons first rest ih =>
      obtain ⟨above, later⟩ := List.pairwise_cons.mp ascends
      rw [insertAscending]
      split
      · rename_i below
        refine List.pairwise_cons.mpr ⟨?_, ascends⟩
        intro m member
        rcases List.mem_cons.mp member with rfl | member
        · exact below
        · exact Int.lt_trans below (above m member)
      · split
        · exact ascends
        · rename_i notBelow different
          have different : n ≠ first := by simpa using different
          refine List.pairwise_cons.mpr ⟨?_, ih later⟩
          intro m member
          rcases (mem_insertAscending n m rest).mp member with rfl | member
          · omega
          · exact above m member

theorem foldl_insertAscending (ids sorted : List Int) (ascends : sorted.Pairwise (· < ·)) :
    (ids.foldl (fun sorted id => insertAscending id sorted) sorted).Pairwise (· < ·) ∧
      ∀ m, m ∈ ids.foldl (fun sorted id => insertAscending id sorted) sorted ↔
        m ∈ sorted ∨ m ∈ ids := by
  induction ids generalizing sorted with
  | nil => exact ⟨ascends, by simp⟩
  | cons id rest ih =>
      obtain ⟨ascendsAll, members⟩ := ih _ (insertAscending_ascends id sorted ascends)
      refine ⟨ascendsAll, ?_⟩
      intro m
      rw [List.foldl_cons, members m, mem_insertAscending, List.mem_cons, or_assoc, or_left_comm]

theorem dependenciesOn_ascends (declared : Declarations) (c : Chunk) :
    (c.dependenciesOn declared).Pairwise (· < ·) :=
  (foldl_insertAscending _ [] .nil).1

theorem mem_dependenciesOn (declared : Declarations) (c : Chunk) (d : Int) :
    d ∈ c.dependenciesOn declared ↔
      (∃ v ∈ c.used, (v.upper, d) ∈ declared) ∨
        (d = c.continuesFrom ∧ 0 < c.continuesFrom ∧ c.continuesFrom < c.id) := by
  have users : d ∈ (c.used.flatMap fun v =>
      (declared.filter fun entry => entry.1 == v.upper).map Prod.snd) ↔
        ∃ v ∈ c.used, (v.upper, d) ∈ declared := by
    simp only [List.mem_flatMap, List.mem_map, List.mem_filter]
    constructor
    · rintro ⟨v, used, ⟨name, id⟩, ⟨member, same⟩, rfl⟩
      have same : name = v.upper := by simpa using same
      exact ⟨v, used, same ▸ member⟩
    · rintro ⟨v, used, member⟩
      exact ⟨v, used, (v.upper, d), ⟨member, by simp⟩, rfl⟩
  rw [dependenciesOn, (foldl_insertAscending _ [] .nil).2, List.mem_nil_iff, false_or]
  split
  · rename_i earlier
    have earlier : 0 < c.continuesFrom ∧ c.continuesFrom < c.id := by simpa using earlier
    rw [List.mem_append, List.mem_singleton, and_iff_left earlier]
    exact or_congr_left users
  · rename_i notEarlier
    have notEarlier : ¬ (0 < c.continuesFrom ∧ c.continuesFrom < c.id) := by simpa using notEarlier
    rw [or_iff_left fun continued => notEarlier continued.2]
    exact users

/-- Chunk numbers that a chunk may depend on, each once. -/
def BackwardDependencies (c : Chunk) : Prop :=
  c.dependencies.Pairwise (· < ·) ∧ ∀ d ∈ c.dependencies, 1 ≤ d ∧ d ≤ c.id - 1

theorem linkDependenciesFrom_backward (declared : Declarations) (chunks : List Chunk)
    (ascends : chunks.Pairwise fun a b => a.id < b.id) (positive : ∀ c ∈ chunks, 1 ≤ c.id)
    (earlier : ∀ entry ∈ declared, 1 ≤ entry.2 ∧ ∀ c ∈ chunks, entry.2 < c.id) :
    ∀ c ∈ linkDependenciesFrom declared chunks, c.BackwardDependencies := by
  induction chunks generalizing declared with
  | nil => intro c member; cases member
  | cons first rest ih =>
      obtain ⟨above, later⟩ := List.pairwise_cons.mp ascends
      intro c member
      rw [linkDependenciesFrom] at member
      rcases List.mem_cons.mp member with rfl | member
      · refine ⟨dependenciesOn_ascends declared first, ?_⟩
        intro d needed
        dsimp only
        rcases (mem_dependenciesOn declared first d).mp needed with ⟨v, _, entry⟩ | continued
        · have bounds := earlier _ entry
          have below := bounds.2 first List.mem_cons_self
          omega
        · omega
      · refine ih _ later (fun d inside => positive d (List.mem_cons_of_mem first inside)) ?_ c member
        intro entry known
        rcases List.mem_append.mp known with old | new
        · have bounds := earlier entry old
          exact ⟨bounds.1, fun d inside => bounds.2 d (List.mem_cons_of_mem first inside)⟩
        · obtain ⟨v, _, rfl⟩ := List.mem_map.mp new
          exact ⟨positive first List.mem_cons_self, above⟩

/-! ### The check of a chunk -/

section Guards

variable {fault : Prop} [Decidable fault]

theorem refused (e : ChunkError) :
    (if fault then throw e else pure ()) = (.ok () : Except ChunkError Unit) ↔ ¬ fault := by
  split
  · rename_i holds
    simp [holds, throw, throwThe, MonadExceptOf.throw]
  · rename_i absent
    simp [absent, pure, Except.pure]

theorem followed (first : Except ChunkError Unit) (next : Unit → Except ChunkError Unit) :
    (first >>= next) = .ok () ↔ first = .ok () ∧ next () = .ok () := by
  rw [bind_eq_ok_iff]
  constructor
  · rintro ⟨_, here, later⟩
    exact ⟨here, later⟩
  · rintro ⟨here, later⟩
    exact ⟨(), here, later⟩

end Guards

theorem checkRange_eq_ok_iff (c : Chunk) :
    c.checkRange = .ok () ↔ 0 < c.start ∧ 0 < c.stop ∧ c.start ≤ c.stop := by
  rw [checkRange]
  refine (guarded _ _).trans ?_
  rw [refused]
  simp
  omega

theorem check_eq_ok_iff (c : Chunk) :
    c.check = .ok () ↔ 0 < c.id ∧ c.checkRange = .ok () ∧ c.kind.isKnown = true ∧ 0 ≤ c.complexity ∧
      (∀ d ∈ c.dependencies, 0 < d ∧ d < c.id) ∧
      ∀ p, c.part = some p → 1 ≤ p.ordinal ∧ p.ordinal ≤ p.total := by
  have earlier : (¬ (c.dependencies.any fun d => decide (c.id ≤ d) || decide (d ≤ 0)) = true) ↔
      ∀ d ∈ c.dependencies, 0 < d ∧ d < c.id := by
    simp [and_comm]
  -- One step for each fault, in the order in which the check looks for them.
  rw [check]
  refine (guarded _ _).trans (and_congr (by omega) ?_)
  refine (followed _ _).trans (and_congr Iff.rfl ?_)
  refine (guarded _ _).trans (and_congr (by simp) ?_)
  refine (guarded _ _).trans (and_congr (by omega) ?_)
  refine (guarded _ _).trans (and_congr earlier ?_)
  cases c.part with
  | none => simp [pure, Except.pure]
  | some p => simp [refused]

end Chunk

theorem ChunkKind.dominant_isKnown (lines : List Line) : (dominant lines).isKnown = true := by
  rw [dominant]
  cases found : priority.find? fun kind => lines.any (signalled kind) with
  | none => rfl
  | some kind =>
      rw [isKnown, Option.getD_some, List.elem_eq_mem, decide_eq_true_eq]
      exact List.mem_of_find?_eq_some found

/-! ### The chunks of a script -/

namespace Script

theorem chunks_ascend (s : Script) (z : Sizing) : (s.chunks z).Pairwise fun a b => a.id < b.id := by
  rw [List.pairwise_iff_getElem]
  intro i j low high before
  have first := chunks_id s z i _ (List.getElem?_eq_getElem low)
  have second := chunks_id s z j _ (List.getElem?_eq_getElem high)
  omega

theorem chunks_backward (s : Script) (z : Sizing) : ∀ c ∈ s.chunks z, c.BackwardDependencies := by
  have described : Chunk.id ∘ Chunk.described = Chunk.id := rfl
  intro c member
  have ids : (s.chunks z).map Chunk.id = (Chunk.linkContinuations
      (Chunk.numberFrom 1 (s.plan.flatMap (Divider.mk z.normalized s).chunksOf))).map Chunk.id := by
    rw [chunks, List.map_map, described, Chunk.linkDependencies, Chunk.linkDependenciesFrom_ids]
  have ascends := List.pairwise_map.mpr (chunks_ascend s z)
  have positive : ∀ id ∈ (s.chunks z).map Chunk.id, 1 ≤ id := by
    intro id numbered
    obtain ⟨d, inside, rfl⟩ := List.mem_map.mp numbered
    obtain ⟨k, here⟩ := List.mem_iff_getElem?.mp inside
    have place := chunks_id s z k d here
    omega
  rw [ids] at ascends positive
  rw [chunks] at member
  obtain ⟨linked, inside, rfl⟩ := List.mem_map.mp member
  exact Chunk.linkDependenciesFrom_backward [] _ (List.pairwise_map.mp ascends)
    (fun d there => positive d.id (List.mem_map_of_mem there)) (fun entry none => by cases none)
    linked inside

theorem chunks_check (s : Script) (z : Sizing) : ∀ c ∈ s.chunks z, c.check = .ok () := by
  intro c member
  obtain ⟨k, here⟩ := List.mem_iff_getElem?.mp member
  have place := chunks_id s z k c here
  have backward := chunks_backward s z c member
  obtain ⟨group, whole, inside, parts, _⟩ := mem_chunks_group s z c member
  have lines : c.bare ∈ (s.chunks z).map Chunk.bare := List.mem_map_of_mem member
  rw [chunks_bare] at lines
  obtain ⟨span, among, same⟩ := List.mem_map.mp lines
  have bounds := (spans_tiles s z).mem_bounds span among
  have start : (span.1 + 1 : Int) = c.start := congrArg Chunk.start same
  have stop : (span.2 : Int) = c.stop := congrArg Chunk.stop same
  have kind : ChunkKind.dominant (s.slice span.1 span.2) = c.kind := congrArg Chunk.kind same
  have weight : (s.weight span.1 span.2 : Int) = c.complexity := congrArg Chunk.complexity same
  rw [Chunk.check_eq_ok_iff, Chunk.checkRange_eq_ok_iff]
  refine ⟨by omega, ⟨by omega, by omega, by omega⟩, ?_, by omega, ?_, ?_⟩
  · rw [← kind]
    exact ChunkKind.dominant_isKnown _
  · intro d needed
    have bounds := backward.2 d needed
    omega
  · intro p isPart
    obtain ⟨_, _, _, low, high⟩ := parts.part_eq c inside p isPart
    exact ⟨low, high⟩

theorem chunks_orderly (s : Script) (z : Sizing) :
    Chunk.Orderly (fun id => id) (s.chunks z) where
  distinct := (List.pairwise_map.mpr (chunks_ascend s z)).imp Int.ne_of_lt
  known := by
    intro c member d needed
    obtain ⟨k, here⟩ := List.mem_iff_getElem?.mp member
    have inside := (List.getElem?_eq_some_iff.mp here).1
    have place := chunks_id s z k c here
    have bounds := (chunks_backward s z c member).2 d needed
    have room : (d - 1).toNat < (s.chunks z).length := by omega
    have named := chunks_id s z (d - 1).toNat _ (List.getElem?_eq_getElem room)
    exact List.mem_map.mpr ⟨_, List.getElem_mem room, by omega⟩
  different := by
    intro c member
    exact (chunks_backward s z c member).1.imp Int.ne_of_lt
  ranked := by
    intro c member d needed
    have bounds := (chunks_backward s z c member).2 d needed
    omega

end Script

/-- Every chunk passes its check and depends on earlier chunks, each named once and in order, and the
graph of the chunks can be built with exactly these dependencies, in any store of graphs without
cycles. -/
theorem chunkLines_well_formed (lines : List Text) (z : Sizing) :
    (∀ c ∈ chunkLines lines z, c.check = .ok () ∧ c.dependencies.Pairwise (· < ·) ∧
      ∀ d ∈ c.dependencies, 1 ≤ d ∧ d ≤ c.id - 1) ∧
    DependencyGraph.build (chunkLines lines z) = .ok ⟨(chunkLines lines z).map GraphNode.ofChunk⟩ ∧
    ∀ {σ ε : Type} (store : GraphStore σ ε), ∃ g, store.build (chunkLines lines z) = .ok g ∧
      (∀ v, store.vertex g v ↔ v ∈ (chunkLines lines z).map Chunk.id) ∧
      ∀ a b, store.edge g a b ↔ ∃ c ∈ chunkLines lines z, a ∈ c.dependencies ∧ b = c.id := by
  have orderly := Script.chunks_orderly (Script.ofLines lines) z
  refine ⟨?_, DependencyGraph.build_eq_ok _ _ orderly, fun store => store.build_ok _ orderly⟩
  intro c member
  exact ⟨Script.chunks_check _ z c member, Script.chunks_backward _ z c member⟩

theorem chunkLines_well_formed_branch :
    let chunks := chunkLines ["IF 1 = 1", "BEGIN", "SELECT 1", "END"]
      { target := 1, min := 1, max := 2 }
    ∃ g, DependencyGraph.build chunks = .ok g ∧ DependencyGraph.store.edge g 1 2 := by
  intro chunks
  obtain ⟨_, _, graphs⟩ := chunkLines_well_formed _ _
  obtain ⟨g, built, _, edges⟩ := graphs DependencyGraph.store
  exact ⟨g, built, (edges 1 2).mpr (by decide +kernel)⟩

end ScriptAtlas
