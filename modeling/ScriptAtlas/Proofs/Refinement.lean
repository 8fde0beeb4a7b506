import ScriptAtlas.Proofs.Continuation
import ScriptAtlas.Proofs.Coverage

/-!
Division refines the plan. Under every sizing the chunks fall into one group for each chunk of the
strict strategy, and each group says about its lines together what the undivided chunk says about them.
-/

namespace ScriptAtlas

/-! ### Names up to case -/

/-- Lists that hold the same names up to case, in whatever order and spelling. -/
def SameNames (names others : List Text) : Prop :=
  ∀ key, key ∈ names.map Text.upper ↔ key ∈ others.map Text.upper

theorem SameNames.trans {names others more : List Text} (left : SameNames names others)
    (right : SameNames others more) : SameNames names more :=
  fun key => (left key).trans (right key)

theorem SameNames.symm {names others : List Text} (same : SameNames names others) :
    SameNames others names :=
  fun key => (same key).symm

theorem SameNames.flatMap {α : Type} (items : List α) (names others : α → List Text)
    (same : ∀ item ∈ items, SameNames (names item) (others item)) :
    SameNames (items.flatMap names) (items.flatMap others) := by
  intro key
  rw [List.map_flatMap, List.map_flatMap, List.mem_flatMap, List.mem_flatMap]
  constructor
  · rintro ⟨item, member, here⟩
    exact ⟨item, member, (same item member key).mp here⟩
  · rintro ⟨item, member, here⟩
    exact ⟨item, member, (same item member key).mpr here⟩

theorem sortNames_same (names : List Text) : SameNames (sortNames names) names := by
  intro key
  exact ((List.mergeSort_perm names _).map Text.upper).mem_iff

/-- The step of `gatherNames`: a name is kept, under its key, unless the key is there. -/
def keepName (kept : List (Text × Text)) (name : Text) : List (Text × Text) :=
  if kept.any fun (known, _) => known == name.upper then kept else kept ++ [(name.upper, name)]

theorem gatherNames_eq (names : List Text) :
    gatherNames names = (names.foldl keepName []).map Prod.snd :=
  rfl

def Keyed (kept : List (Text × Text)) : Prop :=
  ∀ entry ∈ kept, entry.1 = entry.2.upper

theorem Keyed.map_upper {kept : List (Text × Text)} (keyed : Keyed kept) :
    (kept.map Prod.snd).map Text.upper = kept.map Prod.fst := by
  rw [List.map_map]
  exact List.map_congr_left fun entry member => (keyed entry member).symm

theorem keepName_keyed (kept : List (Text × Text)) (name : Text) (keyed : Keyed kept) :
    Keyed (keepName kept name) := by
  rw [keepName]
  split
  · exact keyed
  · intro entry member
    rcases List.mem_append.mp member with old | new
    · exact keyed entry old
    · rw [List.mem_singleton.mp new]

theorem mem_keepName (kept : List (Text × Text)) (name key : Text) :
    key ∈ (keepName kept name).map Prod.fst ↔ key ∈ kept.map Prod.fst ∨ key = name.upper := by
  rw [keepName]
  split
  · rename_i known
    refine ⟨.inl, ?_⟩
    rintro (old | rfl)
    · exact old
    · simpa using known
  · simp

theorem foldl_keepName (names : List Text) (kept : List (Text × Text)) (keyed : Keyed kept) :
    Keyed (names.foldl keepName kept) ∧ ∀ key, key ∈ (names.foldl keepName kept).map Prod.fst ↔
      key ∈ kept.map Prod.fst ∨ key ∈ names.map Text.upper := by
  induction names generalizing kept with
  | nil => exact ⟨keyed, by simp⟩
  | cons name rest ih =>
      obtain ⟨keyedAll, keys⟩ := ih (keepName kept name) (keepName_keyed kept name keyed)
      refine ⟨keyedAll, ?_⟩
      intro key
      rw [List.foldl_cons, keys key, mem_keepName, List.map_cons, List.mem_cons, or_assoc]

theorem gatherNames_same (names : List Text) : SameNames (gatherNames names) names := by
  obtain ⟨keyed, keys⟩ := foldl_keepName names [] (fun entry member => by cases member)
  intro key
  rw [gatherNames_eq, keyed.map_upper, keys key]
  simp

/-! ### Lines of tilings -/

theorem Tiles.slice_eq {lo hi : Nat} {spans : List (Nat × Nat)} (tiles : Tiles lo hi spans)
    (s : Script) :
    s.slice lo hi = spans.flatMap fun span => s.slice span.1 span.2 := by
  induction spans generalizing lo with
  | nil =>
      have stop : lo = hi := tiles
      simp [Script.slice, stop]
  | cons span rest ih =>
      obtain ⟨start, nonempty, after⟩ := tiles
      rw [List.flatMap_cons, ← ih after, ← start]
      exact s.slice_append span.1 span.2 hi (Nat.le_of_lt nonempty) after.le

theorem Tiles.weight_eq {lo hi : Nat} {spans : List (Nat × Nat)} (tiles : Tiles lo hi spans)
    (s : Script) :
    (spans.map fun span => (s.weight span.1 span.2 : Int)).sum = s.weight lo hi := by
  induction spans generalizing lo with
  | nil =>
      have stop : lo = hi := tiles
      simp [Script.weight, Script.weightFrom, stop]
  | cons span rest ih =>
      obtain ⟨start, nonempty, after⟩ := tiles
      have whole := s.slice_append span.1 span.2 hi (Nat.le_of_lt nonempty) after.le
      rw [List.map_cons, List.sum_cons, ih after, ← start]
      simp only [Script.weight_eq_sum, whole, List.map_append, List.sum_append, Int.natCast_add]

theorem Tiles.tile {lo hi : Nat} {spans : List (Nat × Nat)} (tiles : Tiles lo hi spans) :
    LineRange.Tile (lo + 1) hi (spans.map fun span => ⟨span.1 + 1, span.2⟩) := by
  induction spans generalizing lo with
  | nil =>
      have stop : lo = hi := tiles
      rw [stop]
      rfl
  | cons span rest ih =>
      obtain ⟨start, nonempty, after⟩ := tiles
      refine ⟨by simp [start], ?_, ih after⟩
      dsimp only
      omega

/-! ### Groups beside undivided chunks -/

namespace Chunk

def nameLists : List (Chunk → List Text) :=
  [operations, declared, used, tables, control, business]

/-- The chunks of a group tile the lines of the undivided chunk, name it as their block, and together
have its weight and its names. -/
structure RefinedBy (whole : Chunk) (group : List Chunk) : Prop where
  nonempty : group ≠ []
  lines : LineRange.Tile whole.start whole.stop (ranges group)
  parent : ∀ c ∈ group, ∀ p, c.part = some p →
    p.parentStart = whole.start ∧ p.parentEnd = whole.stop ∧ p.parentKind = whole.kind
  complexity : (group.map complexity).sum = whole.complexity
  names : ∀ list ∈ nameLists, SameNames (list whole) (group.flatMap list)

theorem ofLines_names (s : Script) (list : Chunk → List Text) (member : list ∈ nameLists) :
    ∃ view : Line → List Text, ∀ lo hi,
      SameNames (list (ofLines s lo hi)) ((s.slice lo hi).flatMap view) := by
  have sorted : ∀ (view : Line → List Text) (lo hi : Nat),
      SameNames (sortNames (gatherNames ((s.slice lo hi).flatMap view)))
        ((s.slice lo hi).flatMap view) :=
    fun view lo hi => (sortNames_same _).trans (gatherNames_same _)
  simp only [nameLists, List.mem_cons, List.not_mem_nil, or_false] at member
  rcases member with rfl | rfl | rfl | rfl | rfl | rfl
  · exact ⟨Line.operations, sorted _⟩
  · exact ⟨Line.declared, sorted _⟩
  · exact ⟨Line.used, sorted _⟩
  · exact ⟨Line.tables, sorted _⟩
  · exact ⟨Line.control, sorted _⟩
  · exact ⟨Line.business, fun lo hi => gatherNames_same _⟩

theorem nameLists_bare (list : Chunk → List Text) (member : list ∈ nameLists) (c : Chunk) :
    list c.bare = list c := by
  simp only [nameLists, List.mem_cons, List.not_mem_nil, or_false] at member
  rcases member with rfl | rfl | rfl | rfl | rfl | rfl <;> rfl

theorem RefinedBy.of_bare {whole : Chunk} {group : List Chunk} (refined : whole.bare.RefinedBy group) :
    whole.RefinedBy group where
  nonempty := refined.nonempty
  lines := refined.lines
  parent := refined.parent
  complexity := refined.complexity
  names := by
    intro list member
    rw [← nameLists_bare list member whole]
    exact refined.names list member

theorem refinedBy_of_tiles (s : Script) (lo hi : Nat) (spans : List (Nat × Nat))
    (tiles : Tiles lo hi spans) (group : List Chunk) (parts : (ofLines s lo hi).PartsOf group)
    (same : group.map bare = spans.map fun span => ofLines s span.1 span.2) :
    (ofLines s lo hi).RefinedBy group where
  nonempty := parts.ne_nil
  lines := by
    have view : ranges group = spans.map fun span => ⟨span.1 + 1, span.2⟩ := by
      have view := congrArg ranges same
      simp only [ranges, List.map_map] at view ⊢
      exact view
    rw [view]
    exact tiles.tile
  parent := by
    intro c member p isPart
    obtain ⟨kind, start, stop, _⟩ := parts.part_eq c member p isPart
    exact ⟨start, stop, kind⟩
  complexity := by
    have view := congrArg (List.map complexity) same
    simp only [List.map_map] at view
    calc
      (group.map complexity).sum =
          (spans.map (complexity ∘ fun span => ofLines s span.1 span.2)).sum := by
        rw [← view]
        rfl
      _ = (spans.map fun span => (s.weight span.1 span.2 : Int)).sum := rfl
      _ = (ofLines s lo hi).complexity := tiles.weight_eq s
  names := by
    intro list member
    obtain ⟨view, names⟩ := ofLines_names s list member
    have gathered : group.flatMap list = spans.flatMap fun span => list (ofLines s span.1 span.2) := by
      have whole := congrArg (List.flatMap list) same
      simp only [List.flatMap_map, nameLists_bare list member] at whole
      exact whole
    have lines : (s.slice lo hi).flatMap view =
        spans.flatMap fun span => (s.slice span.1 span.2).flatMap view := by
      rw [tiles.slice_eq s, List.flatMap_assoc]
    rw [gathered]
    refine (names lo hi).trans ?_
    rw [lines]
    exact (SameNames.flatMap spans _ _ fun span _ => names span.1 span.2).symm

/-- The chunks cut from the same block as `c`; a chunk that is no part stands alone. -/
def family (chunks : List Chunk) (c : Chunk) : List Chunk :=
  if c.part = none then [c] else siblings chunks c

theorem PartsOf.eq_family {whole : Chunk} {group : List Chunk} {groups : List (List Chunk)}
    (parts : PartsOf whole group) (separate : groups.Pairwise Separate) (member : group ∈ groups)
    (c : Chunk) (inside : c ∈ group) : group = family groups.flatten c := by
  rw [family]
  split
  · rename_i plain
    cases parts with
    | undivided d _ => rw [List.mem_singleton.mp inside]
    | divided _ reason several numbered =>
        obtain ⟨k, here⟩ := List.mem_iff_getElem?.mp inside
        rw [numbered k c here] at plain
        cases plain
  · rename_i isPart
    refine (siblings_eq_group separate group member c inside ?_).symm
    exact fun d there => parts.shares c d inside there isPart

end Chunk

theorem Script.strict_chunks (s : Script) (z : Sizing) (strict : z.strategy = .strictLogical) :
    (s.chunks z).map Chunk.bare = s.plan.map fun b => Chunk.ofLines s b.start b.stop := by
  have whole : (Divider.mk z.normalized s).spans = fun b => [b.span] := by
    funext b
    simp [Divider.spans, Divider.isOversized, Sizing.normalized, strict]
  refine (chunks_bare s z).trans ?_
  rw [spans, whole, ← List.map_eq_flatMap, List.map_map]
  rfl

theorem Script.refinedBy_group (s : Script) (z : Sizing) (b : Block) (group : List Chunk)
    (member : b ∈ s.plan)
    (same : group.map Chunk.unlinked = ((Divider.mk z.normalized s).chunksOf b).map Chunk.unlinked) :
    (Chunk.ofLines s b.start b.stop).RefinedBy group := by
  have room := ((plan_tiles s).mem_bounds b.span (List.mem_map_of_mem member)).2.1
  exact Chunk.refinedBy_of_tiles s b.start b.stop _
    (Divider.spans_tiles (Divider.mk z.normalized s) b z.normalized_min_pos room) group
    ((Divider.chunksOf_partsOf (Divider.mk z.normalized s) b).congr same)
    (Divider.group_bare (Divider.mk z.normalized s) b group same)

/-- The chunks of any sizing fall into families of one block each, and these refine, one by one and in
order, the chunks of the strict strategy. -/
theorem chunkLines_refines_strict (lines : List Text) (z : Sizing) :
    ∃ groups : List (List Chunk), groups.flatten = chunkLines lines z ∧
      (∀ group ∈ groups, ∀ c ∈ group, group = Chunk.family (chunkLines lines z) c) ∧
      List.Forall₂ Chunk.RefinedBy (chunkLines lines { z with strategy := .strictLogical }) groups := by
  obtain ⟨groups, flat, separate, related⟩ := Script.chunks_groups (Script.ofLines lines) z
  refine ⟨groups, flat, ?_, ?_⟩
  · intro group member c inside
    obtain ⟨k, low, rfl⟩ := List.getElem_of_mem member
    have parts := (Divider.chunksOf_partsOf _ _).congr (related.get (related.length_eq ▸ low) low)
    rw [chunkLines, ← flat]
    exact parts.eq_family separate member c inside
  · have strict := Script.strict_chunks (Script.ofLines lines) { z with strategy := .strictLogical } rfl
    have inPlan := (List.forall₂_and_left _ _).mpr
      ⟨fun b (member : b ∈ (Script.ofLines lines).plan) => member, related⟩
    have blocks := inPlan.imp fun b group here =>
      Script.refinedBy_group (Script.ofLines lines) z b group here.1 here.2
    have bare := List.forall₂_map_left_iff.mpr blocks
    rw [← strict, List.forall₂_map_left_iff] at bare
    exact bare.imp fun whole group refined => refined.of_bare

/-- A branch that is one chunk under the strict strategy, in two parts. -/
example :
    let branch : List Text := ["IF @a = 1", "BEGIN", "SELECT 1", "END"]
    let z : Sizing := { target := 1, min := 1, max := 2 }
    Chunk.ranges (chunkLines branch { z with strategy := .strictLogical }) = [⟨1, 4⟩] ∧
      Chunk.ranges (chunkLines branch z) = [⟨1, 2⟩, ⟨3, 4⟩] := by
  decide +kernel

end ScriptAtlas
